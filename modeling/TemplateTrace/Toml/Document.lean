import TemplateTrace.Text.Bytes
import TemplateTrace.Toml.Value

namespace TemplateTrace.Toml

structure Document where
  entries : Tree.Entries := []
  header : List String := []

namespace Document

open Reader

def openHeader (d : Document) : Reader Document := do
  skip
  if (← peek) = some '[' then
    skip
    let names ← key
    char ']'
    char ']'
    return ⟨← ofExcept (Tree.openElement names d.entries), names⟩
  else
    let names ← key
    char ']'
    return ⟨← ofExcept (Tree.openTable names d.entries), names⟩

def assignment (d : Document) : Reader Document := do
  let names ← key
  char '='
  blanks
  let v ← value maxDepth
  return { d with entries := ← ofExcept (Tree.assignIn d.header names v d.entries) }

def linesWithin : Nat → Document → Reader Document
  | 0, _ => fail .unexpected
  | steps + 1, d => do
    blanks
    match ← peek with
    | none => return d
    | some c =>
      let d ←
        if c = '[' then openHeader d
        else if c = '#' ∨ c = '\n' ∨ c = '\r' then pure d
        else assignment d
      lineEnd
      linesWithin steps d

end Document

def read (text : String) : Except Fault (List (String × Setting)) := do
  let s := (Text.dropMark text).toList
  let (d, _) ← Document.linesWithin (s.length + 1) {} s
  return Tree.settings d.entries

end TemplateTrace.Toml
