import TemplateTrace.Error

namespace TemplateTrace

structure MapStore (m : Type → Type) where
  put : String → String → ExceptT Error m Unit
  get : String → ExceptT Error m (Option String)
  remove : String → ExceptT Error m Unit
  keys : ExceptT Error m (List String)

namespace MapStore

variable {m : Type → Type}

def hoist {n : Type → Type} (f : {α : Type} → m α → n α) (s : MapStore m) : MapStore n where
  put key text := ExceptT.mk (f (s.put key text).run)
  get key := ExceptT.mk (f (s.get key).run)
  remove key := ExceptT.mk (f (s.remove key).run)
  keys := ExceptT.mk (f s.keys.run)

def sortKeys (keys : List String) : List String := keys.mergeSort fun a b => decide (a ≤ b)

end MapStore

end TemplateTrace
