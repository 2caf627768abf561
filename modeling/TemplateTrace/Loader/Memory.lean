import TemplateTrace.Assoc
import TemplateTrace.Loader.Basic

/-!
Templates that are registered in memory. Several logical paths may lead to one file. A change
that breaks off in the middle leaves the templates locked: from then on none can be registered or
loaded, while loads are still counted.
-/

namespace TemplateTrace

structure MemoryLoader where
  templates : Assoc String Source := []
  loads : Nat := 0
  isLocked : Bool := false

namespace MemoryLoader

def register (path : String) (source : Source) : ExceptT Failure (StateM MemoryLoader) Unit :=
  fun l =>
    if l.isLocked then (.error (.error .locked), l)
    else (.ok (), { l with templates := Assoc.insert path source l.templates })

def withTemplate (l : MemoryLoader) (path : String) (source : Source) : MemoryLoader :=
  ((register path source).run l).2

def breakOff : ExceptT Failure (StateM MemoryLoader) Unit := fun l =>
  if l.isLocked then (.error (.error .locked), l) else (.error .abort, { l with isLocked := true })

def length (l : MemoryLoader) : Nat := if l.isLocked then 0 else l.templates.length

def load (path : String) : ExceptT Failure (StateM MemoryLoader) Source := fun l =>
  let counted := { l with loads := l.loads + 1 }
  if l.isLocked then (.error (.error .locked), counted)
  else match Assoc.lookup path l.templates with
    | some source => (.ok source, counted)
    | none => (.error (.error (.templateLoad path "no such template registered")), counted)

def contains (path : String) : ExceptT Failure (StateM MemoryLoader) Bool := fun l =>
  (.ok (!l.isLocked && Assoc.contains path l.templates), l)

def loader : Loader (StateM MemoryLoader) where
  load := load
  contains := contains

end MemoryLoader

end TemplateTrace
