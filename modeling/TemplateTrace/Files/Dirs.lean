import TemplateTrace.Files.Basic
import TemplateTrace.Path

namespace TemplateTrace.Files

variable {m : Type → Type} [Monad m] [Files m]

def ensureDir (path : String) : ExceptT FileError m Unit :=
  tryCatch (makeDir path) fun e => do
    if e = .alreadyExists ∧ (← (isDir path : m Bool)) then return ()
    else throw e

def ensureDirsWithin : Nat → String → ExceptT FileError m Unit
  | 0, path => ensureDir path
  | above + 1, path =>
    match Path.parent? path with
    | none => return ()
    | some parent =>
      tryCatch (ensureDir path) fun e => do
        if e = .notFound then
          ensureDirsWithin above parent
          ensureDir path
        else throw e

def ensureDirs (path : String) : ExceptT FileError m Unit :=
  ensureDirsWithin (Path.parts path).length path

end TemplateTrace.Files
