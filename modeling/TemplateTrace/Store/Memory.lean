import TemplateTrace.Assoc
import TemplateTrace.Store.Basic

namespace TemplateTrace

structure MemoryStore where
  entries : Assoc String String := []

namespace MemoryStore

def put (key text : String) : ExceptT Error (StateM MemoryStore) Unit := fun s =>
  (.ok (), ⟨Assoc.insert key text s.entries⟩)

def get (key : String) : ExceptT Error (StateM MemoryStore) (Option String) := fun s =>
  (.ok (Assoc.lookup key s.entries), s)

def remove (key : String) : ExceptT Error (StateM MemoryStore) Unit := fun s =>
  (.ok (), ⟨Assoc.erase key s.entries⟩)

def keys : ExceptT Error (StateM MemoryStore) (List String) := fun s =>
  (.ok (MapStore.sortKeys (Assoc.keys s.entries)), s)

def length (s : MemoryStore) : Nat := s.entries.length

def store : MapStore (StateM MemoryStore) where
  put := put
  get := get
  remove := remove
  keys := keys

end MemoryStore

end TemplateTrace
