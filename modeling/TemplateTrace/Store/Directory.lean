import TemplateTrace.Files.Dirs
import TemplateTrace.SourceMap.Wire
import TemplateTrace.Store.Basic
import TemplateTrace.Store.Key

/-!
Maps that are stored as files of a cache directory, one for each key. An entry is written to a
staging file beside it and moved into its place in one step, so that no reader meets a part of it.
An entry is fresh as long as every template file that its map mentions is there and was not
modified after it.
-/

namespace TemplateTrace

structure DirectoryStore where
  dir : String

namespace DirectoryStore

def entrySuffix : String := ".map.json"

def stagingSuffix : String := ".tmp"

def entryName (key : String) : String := Key.encode key ++ entrySuffix

def entryPath (s : DirectoryStore) (key : String) : String := Path.join s.dir (entryName key)

def stagingPath (s : DirectoryStore) (key : String) : String := s.entryPath key ++ stagingSuffix

def stripSuffix? (name : String) : Option String :=
  let n := name.toList
  let k := n.length - entrySuffix.length
  if n.drop k = entrySuffix.toList then some (String.ofList (n.take k)) else none

def keyOfName? (name : String) : Option String := (stripSuffix? name).bind Key.decode?

variable {m : Type → Type} [Monad m] [Files m]

def onFiles {α : Type} (s : DirectoryStore) (key : String) (act : ExceptT FileError m α) :
    ExceptT Error m α :=
  act.adapt fun e => .store key s!"{e.message} ({s.dir})"

def put (s : DirectoryStore) (key text : String) : ExceptT Error m Unit :=
  s.onFiles key do
    Files.ensureDirs s.dir
    Files.writeText (s.stagingPath key) text
    Files.rename (s.stagingPath key) (s.entryPath key)

def ifFound {α : Type} (act : ExceptT FileError m α) (missing : α) : ExceptT FileError m α :=
  tryCatch act fun e => if e = .notFound then return missing else throw e

def get (s : DirectoryStore) (key : String) : ExceptT Error m (Option String) :=
  s.onFiles key (ifFound (do return some (← Files.readText (s.entryPath key))) none)

def remove (s : DirectoryStore) (key : String) : ExceptT Error m Unit :=
  s.onFiles key (ifFound (Files.removeFile (s.entryPath key)) ())

def keys (s : DirectoryStore) : ExceptT Error m (List String) := do
  if ← (Files.isDir s.dir : m Bool) then
    let names ← (Files.fileNames s.dir : ExceptT FileError m (List String)).adapt fun e =>
      Error.store "" s!"failed to list {s.dir}: {e.message}"
    return MapStore.sortKeys (names.filterMap keyOfName?)
  else return []

def unchangedSince (time : Nat) (file : String) : m Bool := do
  match ← (Files.modified? file : m (Option Nat)) with
  | some changed => return changed ≤ time
  | none => return false

def isFresh (s : DirectoryStore) (key : String) : ExceptT Error m Bool := do
  match ← (Files.modified? (s.entryPath key) : m (Option Nat)) with
  | none => return false
  | some written =>
    match ← s.get key with
    | none => return false
    | some text =>
      match SourceMap.deserialize (Text.bytes text) with
      | .error _ => return false
      | .ok map => map.paths.allM fun file => (unchangedSince written file : m Bool)

def store (s : DirectoryStore) : MapStore m where
  put := s.put
  get := s.get
  remove := s.remove
  keys := s.keys

end DirectoryStore

end TemplateTrace
