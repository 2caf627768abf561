import TemplateTrace.Loader.Basic
import TemplateTrace.SourceMap.Build
import TemplateTrace.SourceMap.Wire
import TemplateTrace.Store.Basic

namespace TemplateTrace

structure TraceService (m : Type → Type) where
  loader : Loader m
  store : MapStore m

namespace TraceService

variable {m : Type → Type} [Monad m]

def stored {α : Type} (act : ExceptT Error m α) : ExceptT Failure m α := act.adapt .error

def record (s : TraceService m) (key content : String) (table : Table Location) :
    ExceptT Failure m SourceMap := do
  let map ← SourceMap.calculate s.loader.load content table
  stored (s.store.put key map.serialize)
  return map

def load (s : TraceService m) (key : String) : ExceptT Failure m SourceMap := do
  match ← stored (s.store.get key) with
  | none => throw (.error (.notStored key))
  | some text =>
    match SourceMap.deserialize (Text.bytes text) with
    | .ok map => return map
    | .error e =>
      if e.isDecode then stored (s.store.remove key)
      throw (.error (.map e))

def trace (s : TraceService m) (key : String) (line : Nat) : ExceptT Failure m (List Frame) := do
  return (← s.load key).stack line

def dependencies (s : TraceService m) (key : String) : ExceptT Failure m (List String) := do
  return (← s.load key).paths

def keys (s : TraceService m) : ExceptT Failure m (List String) := stored s.store.keys

def forget (s : TraceService m) (key : String) : ExceptT Failure m Unit :=
  stored (s.store.remove key)

end TraceService

end TemplateTrace
