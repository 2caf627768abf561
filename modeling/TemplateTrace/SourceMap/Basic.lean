import TemplateTrace.Chain
import TemplateTrace.Table

namespace TemplateTrace

structure Link where
  file : Nat
  line : Nat
  deriving DecidableEq

structure Frame where
  file : String
  line : Nat
  deriving DecidableEq

def Frame.display (f : Frame) : String := f.file ++ ":" ++ toString f.line

@[ext]
structure SourceMap where
  files : List String
  lines : Table (Chain Link)
  deriving DecidableEq

namespace SourceMap

def empty : SourceMap := ⟨[], .empty⟩

/-- The name of the file with the given index; the empty name where there is none. -/
def fileName (m : SourceMap) (i : Nat) : String := m.files[i]?.getD ""

def frame (m : SourceMap) (l : Link) : Frame := ⟨m.fileName l.file, l.line⟩

def stack (m : SourceMap) (line : Nat) : List Frame :=
  match m.lines.floor? line with
  | none => []
  | some (_, chain) => chain.links.map m.frame

def links (m : SourceMap) : List Link := m.lines.values.flatMap Chain.links

def firstSeen (names : List String) : List String :=
  names.foldl (fun seen name => if seen.contains name then seen else seen ++ [name]) []

def paths (m : SourceMap) : List String := firstSeen (m.links.map fun l => m.fileName l.file)

def length (m : SourceMap) : Nat := m.lines.length

def Closed (m : SourceMap) : Prop := ∀ l ∈ m.links, l.file < m.files.length

instance (m : SourceMap) : Decidable m.Closed := inferInstanceAs (Decidable (∀ l ∈ m.links, _))

theorem fileName_of_lt {m : SourceMap} {i : Nat} (h : i < m.files.length) :
    m.fileName i = m.files[i] := by
  simp [fileName, h]

end SourceMap

end TemplateTrace
