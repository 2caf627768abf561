
namespace TemplateTrace.Toml

inductive Reason
  | unexpected
  | unterminated
  | invalidEscape
  | invalidNumber
  | invalidDate
  | duplicateKey
  | notTable
  | tooDeep
  deriving DecidableEq

def Reason.message : Reason → String
  | unexpected => "unexpected character or end of input"
  | unterminated => "unterminated string"
  | invalidEscape => "invalid escape"
  | invalidNumber => "invalid number"
  | invalidDate => "invalid date or time"
  | duplicateKey => "duplicate key"
  | notTable => "key of a value that is no table"
  | tooDeep => "values are nested too deeply"

structure Fault where
  reason : Reason
  left : Nat
  deriving DecidableEq

def Fault.message (text : String) (f : Fault) : String :=
  let s := text.toList
  let line := (s.take (s.length - f.left)).count '\n' + 1
  s!"TOML parse error at line {line}: {f.reason.message}"

abbrev Reader (α : Type) := StateT (List Char) (Except Fault) α

namespace Reader

variable {α : Type}

def maxDepth : Nat := 80

def fail (reason : Reason) : Reader α := fun s => .error ⟨reason, s.length⟩

def ofExcept (r : Except Reason α) : Reader α :=
  match r with
  | .ok a => return a
  | .error reason => fail reason

def peek : Reader (Option Char) := fun s => .ok (s.head?, s)

def skip : Reader Unit := fun s => .ok ((), s.tail)

def char (c : Char) : Reader Unit := do
  if (← peek) = some c then skip else fail .unexpected

def takeWhile (p : Char → Bool) : Reader (List Char) := fun s =>
  .ok (s.takeWhile p, s.dropWhile p)

def isBlank (c : Char) : Bool := c == ' ' || c == '\t'

def blanks : Reader Unit := fun s => .ok ((), s.dropWhile isBlank)

def isControl (c : Char) : Bool := (c.toNat < 0x20 && c != '\t') || c.toNat == 0x7F

def afterNewline? : List Char → Option (List Char)
  | '\n' :: rest => some rest
  | '\r' :: '\n' :: rest => some rest
  | _ => none

def newline? : Reader Bool := fun s =>
  match afterNewline? s with
  | some rest => .ok (true, rest)
  | none => .ok (false, s)

def comment : Reader Unit := do
  if (← peek) = some '#' then
    let _ ← takeWhile fun c => !isControl c

def lineEnd : Reader Unit := do
  blanks
  comment
  if ← newline? then return ()
  else if (← peek).isSome then fail .unexpected

def gapWithin : Nat → Reader Unit
  | 0 => return ()
  | steps + 1 => do
    blanks
    comment
    if ← newline? then gapWithin steps

def gap : Reader Unit := do gapWithin (← get).length

end Reader

end TemplateTrace.Toml
