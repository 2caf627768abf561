import TemplateTrace.Settings.Value
import TemplateTrace.Toml.Date
import TemplateTrace.Toml.Tree
import TemplateTrace.Toml.Text

namespace TemplateTrace.Toml.Reader

def plainDigits? : List Char → Option (List Char)
  | [] => some []
  | [c] => if c = '_' then none else some [c]
  | '_' :: _ => none
  | c :: '_' :: rest =>
    if rest.isEmpty ∨ rest.head? = some '_' then none else (plainDigits? rest).map (c :: ·)
  | c :: rest => (plainDigits? rest).map (c :: ·)

def based? (base : Nat) (digits : List Char) : Option Int :=
  ((plainDigits? digits).bind (Digits.natural? base)).bind fun n =>
    if Digits.fits n then some n else none

def whole? (digits : List Char) : Option (List Char) := do
  let plain ← plainDigits? digits
  if plain.isEmpty ∨ !plain.all Char.isDigit ∨ (plain.head? = some '0' ∧ 1 < plain.length) then none
  else return plain

def tail? (s : List Char) : Option (List Char) := do
  let isMark (c : Char) : Bool := c == 'e' || c == 'E'
  let digits (s : List Char) : Option (List Char) := do
    let plain ← plainDigits? s
    if plain.isEmpty ∨ !plain.all Char.isDigit then none else return plain
  let fraction ← match s.takeWhile (!isMark ·) with
    | [] => some []
    | '.' :: rest => (digits rest).map ('.' :: ·)
    | _ => none
  match s.dropWhile (!isMark ·) with
  | [] => return fraction
  | _ :: '-' :: rest => return fraction ++ ['e', '-'] ++ (← digits rest)
  | _ :: '+' :: rest => return fraction ++ 'e' :: (← digits rest)
  | _ :: rest => return fraction ++ 'e' :: (← digits rest)

def decimal? (isNegative : Bool) (s : List Char) : Option Setting := do
  let isWhole (c : Char) : Bool := c.isDigit || c == '_'
  let whole ← whole? (s.takeWhile isWhole)
  let rest := s.dropWhile isWhole
  if rest.isEmpty then
    let n := Digits.signed isNegative (← Digits.natural? 10 whole)
    if Digits.fits n then return .integer n else none
  else
    let size ← Floating.size? (whole ++ (← tail? rest))
    return .floating (.finite isNegative (← size))

def number? (s : List Char) : Option Setting :=
  match s with
  | '0' :: 'x' :: digits => (based? 16 digits).map .integer
  | '0' :: 'o' :: digits => (based? 8 digits).map .integer
  | '0' :: 'b' :: digits => (based? 2 digits).map .integer
  | s =>
    let (isNegative, rest) := Digits.splitSign s
    if rest = ['i', 'n', 'f'] then some (.floating (.infinite isNegative))
    else if rest = ['n', 'a', 'n'] then some (.floating .notANumber)
    else decimal? isNegative rest

def isPlain (c : Char) : Bool :=
  c.isAlphanum || c == '_' || c == '+' || c == '-' || c == '.' || c == ':'

def beginsDate (s : List Char) : Bool :=
  let digits := (s.takeWhile Char.isDigit).length
  (digits == 4 && s[4]? == some '-') || (digits == 2 && s[2]? == some ':')

def dateText : Reader (List Char) := do
  let first ← takeWhile isPlain
  let rest ← get
  match rest with
  | ' ' :: c :: _ =>
    if first.length = 10 ∧ c.isDigit then
      skip
      return first ++ ' ' :: (← takeWhile isPlain)
    else return first
  | _ => return first

def plainValue : Reader Setting := fun s =>
  if beginsDate s then (do
    match Date.ofText? (← dateText) with
    | some d => return .text d.text
    | none => fail .invalidDate : Reader Setting) s
  else (do
    let word ← takeWhile isPlain
    if word = ['t', 'r', 'u', 'e'] then return .bool true
    else if word = ['f', 'a', 'l', 's', 'e'] then return .bool false
    else if word.isEmpty then fail .unexpected
    else match number? word with
      | some v => return v
      | none => fail .invalidNumber : Reader Setting) s

def itemsWithin (item : Reader Setting) : Nat → Reader (List Setting)
  | 0 => fail .unexpected
  | steps + 1 => do
    gap
    if (← peek) = some ']' then
      skip
      return []
    else
      let first ← item
      gap
      if (← peek) = some ',' then
        skip
        return first :: (← itemsWithin item steps)
      else
        char ']'
        return [first]

def entriesWithin (item : Reader Setting) : Nat → Tree.Entries → Reader Tree.Entries
  | 0, _ => fail .unexpected
  | steps + 1, soFar => do
    gap
    if (← peek) = some '\x7d' then
      skip
      return soFar
    else
      let names ← key
      gap
      char '='
      gap
      let soFar ← ofExcept (Tree.assign names (← item) soFar)
      gap
      if (← peek) = some ',' then
        skip
        entriesWithin item steps soFar
      else
        char '\x7d'
        return soFar

def value : Nat → Reader Setting
  | 0 => do
    match ← peek with
    | some '[' => fail .tooDeep
    | some '\x7b' => fail .tooDeep
    | some '"' => return .text (← text)
    | some '\'' => return .text (← text)
    | _ => plainValue
  | depth + 1 => do
    match ← peek with
    | some '[' =>
      skip
      return .list (← itemsWithin (value depth) ((← get).length + 1))
    | some '\x7b' =>
      skip
      return .table (Tree.settings (← entriesWithin (value depth) ((← get).length + 1) []))
    | some '"' => return .text (← text)
    | some '\'' => return .text (← text)
    | _ => plainValue

end TemplateTrace.Toml.Reader
