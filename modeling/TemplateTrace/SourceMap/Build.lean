import TemplateTrace.Assoc
import TemplateTrace.Location.Basic
import TemplateTrace.SourceMap.Basic

/-!
Building a source map from a generated text and its table of locations. Of the locations that
fall on one line the one with the smallest offset wins; only winners are resolved, each template
is loaded once, and the first load that fails ends the build.
-/

namespace TemplateTrace

namespace SourceMap

def winners (content : Bytes) (table : Table Location) : Table Location :=
  table.entries.foldl (fun t e => t.insertNew (Text.lineAt content e.1) e.2) .empty

structure Progress where
  sources : Assoc String Source := []
  files : List String := []

def Progress.intern (p : Progress) (name : String) : Nat × Progress :=
  match p.files.idxOf? name with
  | some i => (i, p)
  | none => (p.files.length, { p with files := p.files ++ [name] })

variable {m : Type → Type} [Monad m] {ε : Type}

/-- The source of a logical path; only an unknown one is loaded. -/
def sourceOf (load : String → ExceptT ε m Source) (path : String) :
    StateT Progress (ExceptT ε m) Source := do
  match (← get).sources.lookup path with
  | some source => return source
  | none =>
    let source ← load path
    modify fun p => { p with sources := Assoc.insert path source p.sources }
    return source

def resolveSite (load : String → ExceptT ε m Source) (site : Site) :
    StateT Progress (ExceptT ε m) Link := do
  let source ← sourceOf load site.path
  let file ← modifyGet (·.intern source.filename)
  return ⟨file, source.lineAt site.offset⟩

def calculate (load : String → ExceptT ε m Source) (content : String) (table : Table Location) :
    ExceptT ε m SourceMap := do
  let resolve := (winners (Text.bytes content) table).mapM (Chain.mapM (resolveSite load))
  let (lines, progress) ← resolve.run {}
  return ⟨progress.files, lines⟩

end SourceMap

end TemplateTrace
