import TemplateTrace.Number.Digits
import TemplateTrace.Toml.Reader

namespace TemplateTrace.Toml.Reader

def codePoint (count : Nat) : Reader Char := fun s =>
  match Digits.natural? 16 (s.take count) with
  | some n =>
    if s.length < count ∨ ¬ n.isValidChar then .error ⟨.invalidEscape, s.length⟩
    else .ok (Char.ofNat n, s.drop count)
  | none => .error ⟨.invalidEscape, s.length⟩

def escape : Reader Char := do
  let c ← peek
  skip
  match c with
  | some 'b' => return '\x08'
  | some 't' => return '\t'
  | some 'n' => return '\n'
  | some 'f' => return '\x0c'
  | some 'r' => return '\r'
  | some 'e' => return '\x1b'
  | some '"' => return '"'
  | some '\\' => return '\\'
  | some 'x' => codePoint 2
  | some 'u' => codePoint 4
  | some 'U' => codePoint 8
  | _ => fail .invalidEscape

def basicWithin : Nat → List Char → Reader String
  | 0, _ => fail .unterminated
  | steps + 1, soFar => do
    match ← peek with
    | none => fail .unterminated
    | some '"' =>
      skip
      return String.ofList soFar.reverse
    | some '\\' =>
      skip
      basicWithin steps ((← escape) :: soFar)
    | some c =>
      if isControl c then fail .unexpected
      skip
      basicWithin steps (c :: soFar)

def literal : Reader String := do
  let s ← takeWhile fun c => c != '\'' && !isControl c
  char '\''
  return String.ofList s

def dropLines : List Char → List Char
  | '\r' :: '\n' :: rest => dropLines rest
  | c :: rest => if isBlank c || c == '\n' then dropLines rest else c :: rest
  | [] => []

def joinedLine? (s : List Char) : Option (List Char) :=
  (afterNewline? (s.dropWhile isBlank)).map dropLines

def linesWithin (quote : Char) : Nat → List Char → Reader String
  | 0, _ => fail .unterminated
  | steps + 1, soFar => do
    let rest ← get
    match rest with
    | [] => fail .unterminated
    | c :: tail =>
      if [quote, quote, quote].isPrefixOf rest then
        let quotes := (rest.takeWhile (· = quote)).length
        if 5 < quotes then fail .unexpected
        set (rest.drop quotes)
        return String.ofList (soFar.reverse ++ List.replicate (quotes - 3) quote)
      else if c = '\\' ∧ quote = '"' then
        match joinedLine? tail with
        | some after =>
          set after
          linesWithin quote steps soFar
        | none =>
          skip
          linesWithin quote steps ((← escape) :: soFar)
      else if isControl c ∧ (afterNewline? rest).isNone then fail .unexpected
      else
        skip
        linesWithin quote steps (c :: soFar)

def lines (quote : Char) : Reader String := do
  let _ ← newline?
  linesWithin quote ((← get).length + 1) []

def quoted : Reader String := do
  if (← peek) = some '\'' then
    skip
    literal
  else
    char '"'
    basicWithin ((← get).length + 1) []

def text : Reader String := fun s =>
  match s with
  | '"' :: '"' :: '"' :: rest => lines '"' rest
  | '\'' :: '\'' :: '\'' :: rest => lines '\'' rest
  | s => quoted s

def isBare (c : Char) : Bool := c.isAlphanum || c == '_' || c == '-'

def name : Reader String := do
  match ← peek with
  | some '"' => quoted
  | some '\'' => quoted
  | _ =>
    let s ← takeWhile isBare
    if s.isEmpty then fail .unexpected else return String.ofList s

def namesWithin : Nat → Reader (List String)
  | 0 => fail .unexpected
  | steps + 1 => do
    blanks
    let first ← name
    blanks
    if (← peek) = some '.' then
      skip
      return first :: (← namesWithin steps)
    else return [first]

def key : Reader (List String) := do
  let names ← namesWithin ((← get).length + 1)
  if maxDepth < names.length then fail .tooDeep else return names

end TemplateTrace.Toml.Reader
