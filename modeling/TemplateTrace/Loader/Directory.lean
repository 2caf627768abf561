import TemplateTrace.Files.Basic
import TemplateTrace.Loader.Basic
import TemplateTrace.Path

namespace TemplateTrace

structure DirectoryLoader where
  root : String
  extension : Option String

namespace DirectoryLoader

/-- The loader of a root directory, which need not exist, seen from the current directory. A root
that has no absolute form stays as it is given. -/
def ofRoot (currentDir? : Option String) (root : String) : DirectoryLoader :=
  ⟨(Path.absolute? currentDir? root).getD root, none⟩

def withExtension (l : DirectoryLoader) (extension : String) : DirectoryLoader :=
  let bare := extension.toList.dropWhile (· = '.')
  { l with extension := if bare.isEmpty then none else some (String.ofList bare) }

inductive Refusal
  | absolutePath
  | upwards
  | empty
  deriving DecidableEq

def Refusal.message : Refusal → String
  | absolutePath => "absolute template paths are not allowed"
  | upwards => "parent directory references are not allowed"
  | empty => "empty template path"

def relativeNames (path : String) : Except Refusal (List String) :=
  if Path.isAbsolute path then .error .absolutePath
  else
    let names := Path.names path
    if names.contains ".." then .error .upwards
    else if names.isEmpty then .error .empty
    else .ok names

/-- The file of a logical path. A default extension with a slash in it must not be needed. -/
def resolve (l : DirectoryLoader) (path : String) : Except Failure String :=
  match relativeNames path with
  | .error r => .error (.error (.templateLoad path r.message))
  | .ok names =>
    let relative := Path.ofParts names
    match l.extension, Path.extension? relative with
    | some extension, none =>
      if extension.toList.contains '/' then .error .abort
      else .ok (Path.join l.root (relative ++ "." ++ extension))
    | _, _ => .ok (Path.join l.root relative)

variable {m : Type → Type} [Monad m] [Files m]

def load (l : DirectoryLoader) (path : String) : ExceptT Failure m Source := do
  let file ← ExceptT.mk (pure (l.resolve path))
  match ← (Files.readText file : ExceptT FileError m String).run with
  | .ok content => return ⟨file, content⟩
  | .error .notFound => throw (.error (.templateLoad path s!"no file at {file}"))
  | .error e => throw (.error (.templateLoad path s!"failed to read {file}: {e.message}"))

def contains (l : DirectoryLoader) (path : String) : ExceptT Failure m Bool :=
  match l.resolve path with
  | .ok file => do return ← (Files.isFile file : m Bool)
  | .error (.error _) => return false
  | .error .abort => throw .abort

def loader (l : DirectoryLoader) : Loader m where
  load := l.load
  contains := l.contains

end DirectoryLoader

end TemplateTrace
