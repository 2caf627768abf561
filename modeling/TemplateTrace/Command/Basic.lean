import TemplateTrace.Command.Error
import TemplateTrace.Loader.Directory
import TemplateTrace.Service
import TemplateTrace.Settings.Basic
import TemplateTrace.Store.Directory

namespace TemplateTrace

inductive CommandFailure
  | error (e : CommandError)
  | abort
  deriving DecidableEq

def CommandFailure.ofFailure : Failure → CommandFailure
  | .error e => error (.core e)
  | .abort => abort

namespace Command

variable {m : Type → Type} [Monad m] {α : Type}

abbrev CommandT (m : Type → Type) (α : Type) := ExceptT CommandFailure m α

def traced (act : ExceptT Failure m α) : CommandT m α := act.adapt .ofFailure

def stored (act : ExceptT Error m α) : CommandT m α := act.adapt fun e => .error (.core e)

variable [Files m]

def readInput (path : String) : CommandT m String :=
  (Files.readText path : ExceptT FileError m String).adapt fun e =>
    .error (.readInput path (e = .notFound) e.message)

def templates (s : Settings) : m DirectoryLoader := do
  let loader := DirectoryLoader.ofRoot (← (Files.currentDir : m (Option String))) s.root
  return match s.extension with
    | some extension => loader.withExtension extension
    | none => loader

def cache (s : Settings) : DirectoryStore := ⟨s.cacheDir⟩

def service (s : Settings) : m (TraceService m) := do
  return ⟨(← templates s).loader, (cache s).store⟩

end Command

end TemplateTrace
