import TemplateTrace.Command.Basic
import TemplateTrace.Command.Console

namespace TemplateTrace

structure CacheEntry where
  key : String
  isFresh : Bool
  deriving DecidableEq

namespace CacheEntry

def encode (e : CacheEntry) : Json.Value := .object [("key", .text e.key), ("fresh", .bool e.isFresh)]

def plain (e : CacheEntry) : String :=
  Console.data (e.key ++ "\t" ++ (if e.isFresh then "fresh" else "stale"))

def human (c : Console) (e : CacheEntry) : String :=
  if e.isFresh then c.success e.key else c.warning s!"{e.key} (stale)"

end CacheEntry

def Console.entries (c : Console) (entries : List CacheEntry) : String :=
  match c.layout with
  | .json => json (.list (entries.map CacheEntry.encode))
  | .human => String.join (entries.map (CacheEntry.human c))
  | .plain => String.join (entries.map CacheEntry.plain)

namespace Command

variable {m : Type → Type} [Monad m] [Files m]

def cacheEntry (s : Settings) (key : String) : CommandT m CacheEntry := do
  return ⟨key, ← stored ((cache s).isFresh key)⟩

def cacheList (s : Settings) (c : Console) : CommandT m String := do
  let keys ← traced (← (service s : m (TraceService m))).keys
  return c.entries (← keys.mapM (cacheEntry s))

def cacheStatus (key : String) (s : Settings) (c : Console) : CommandT m String := do
  match ← stored ((cache s).get key) with
  | none => throw (.error (.core (.notStored key)))
  | some _ => return c.entries [← cacheEntry s key]

def cacheForget (key : String) (s : Settings) (c : Console) : CommandT m String := do
  traced ((← (service s : m (TraceService m))).forget key)
  return c.success s!"Forgot '{key}'"

end Command

end TemplateTrace
