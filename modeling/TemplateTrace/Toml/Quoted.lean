/-!
Texts as they are written in TOML. Of the four kinds of quotes the first one counts in which the
text needs no escapes: double and single ones on a line, then three of each around lines. A text
that has to have escapes stands in double quotes, three of them if it has several lines.
-/

namespace TemplateTrace.Toml

def longestRun (c : Char) : List Char → Nat
  | [] => 0
  | d :: rest =>
    max ((d :: rest).takeWhile (· = c)).length (longestRun c rest)

structure Makeup where
  hasLines : Bool
  hasControls : Bool
  hasBackslash : Bool
  doubleQuotes : Nat
  singleQuotes : Nat

namespace Makeup

def isControl (c : Char) : Bool :=
  (c.toNat < 0x20 && c != '\t' && c != '\n') || c.toNat == 0x7F

def ofText (s : List Char) : Makeup :=
  { hasLines := s.contains '\n'
    hasControls := s.any isControl
    hasBackslash := s.contains '\\'
    doubleQuotes := longestRun '"' s
    singleQuotes := longestRun '\'' s }

end Makeup

/-- The escape of a character in double quotes, if it needs one there: after the given number of
double quotes in a row, one more may be too many. -/
def escape? (spansLines : Bool) (quotesBefore : Nat) (c : Char) : Option String :=
  match c with
  | '"' => if (if spansLines then 2 else 0) ≤ quotesBefore then some "\\\"" else none
  | '\\' => some "\\\\"
  | '\x08' => some "\\b"
  | '\t' => some "\\t"
  | '\n' => if spansLines then none else some "\\n"
  | '\x0c' => some "\\f"
  | '\r' => some "\\r"
  | c =>
    if Makeup.isControl c then
      some ("\\u00" ++ String.ofList [(Nat.digitChar (c.toNat / 16)).toUpper,
        (Nat.digitChar (c.toNat % 16)).toUpper])
    else none

def escaped (spansLines : Bool) : Nat → List Char → String
  | _, [] => ""
  | quotesBefore, c :: rest =>
    match escape? spansLines quotesBefore c with
    | some e => e ++ escaped spansLines 0 rest
    | none =>
      String.singleton c ++ escaped spansLines (if c = '"' then quotesBefore + 1 else 0) rest

def block (mark : String) (hasLines : Bool) (body : String) : String :=
  mark ++ (if hasLines then "\n" else "") ++ body ++ mark

def quoted (s : String) : String :=
  let cs := s.toList
  let m := Makeup.ofText cs
  let basic := "\"" ++ escaped false 0 cs ++ "\""
  let basicBlock := block "\"\"\"" m.hasLines (escaped true 0 cs)
  if ¬ m.hasControls ∧ ¬ m.hasBackslash ∧ m.doubleQuotes = 0 ∧ ¬ m.hasLines then basic
  else if ¬ m.hasControls ∧ m.singleQuotes = 0 ∧ ¬ m.hasLines then "'" ++ s ++ "'"
  else if ¬ m.hasControls ∧ ¬ m.hasBackslash ∧ m.doubleQuotes ≤ 2 then basicBlock
  else if ¬ m.hasControls ∧ m.singleQuotes ≤ 2 then block "'''" m.hasLines s
  else if m.hasLines then basicBlock
  else basic

end TemplateTrace.Toml
