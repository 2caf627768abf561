import TemplateTrace.Error
import TemplateTrace.Location.Basic

namespace TemplateTrace

structure Loader (m : Type → Type) where
  load : String → ExceptT Failure m Source
  contains : String → ExceptT Failure m Bool

namespace Loader

variable {m : Type → Type}

def hoist {n : Type → Type} (f : {α : Type} → m α → n α) (l : Loader m) : Loader n where
  load path := ExceptT.mk (f (l.load path).run)
  contains path := ExceptT.mk (f (l.contains path).run)

def noting [Monad m] (l : Loader m) : Loader (StateT (List String) m) where
  load path := ExceptT.mk fun paths => do return (← (l.load path).run, paths ++ [path])
  contains path := ExceptT.mk fun paths => do return (← (l.contains path).run, paths)

end Loader

end TemplateTrace
