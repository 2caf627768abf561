import TemplateTrace.Text.Blank
import TemplateTrace.Text.Letter

namespace TemplateTrace.Assignment

inductive Quote
  | single
  | double
  deriving DecidableEq

inductive Mode
  | text
  | escape
  | name (soFar : List Char)
  | bracedName (soFar : List Char)
  | trailer
  | comment
  deriving DecidableEq

structure Reading where
  written : List Char := []
  quote : Option Quote := none
  mode : Mode := .text

namespace Reading

def write (c : Char) (r : Reading) : Reading := { r with written := c :: r.written, mode := .text }

def refer (valueOf : String → String) (name : List Char) (r : Reading) : Reading :=
  let value := valueOf (String.ofList name.reverse)
  { r with written := value.toList.reverse ++ r.written, mode := .text }

def escaped? (c : Char) : Option Char :=
  if c = 'n' then some '\n'
  else if ['\\', '\'', '"', '$', ' '].contains c then some c
  else none

def textStep (r : Reading) (c : Char) : Reading :=
  match r.quote with
  | some .single => if c = '\'' then { r with quote := none } else r.write c
  | some .double =>
    if c = '$' then { r with mode := .name [] }
    else if c = '"' then { r with quote := none }
    else if c = '\\' then { r with mode := .escape }
    else r.write c
  | none =>
    if c = '$' then { r with mode := .name [] }
    else if c = '\'' then { r with quote := some .single }
    else if c = '"' then { r with quote := some .double }
    else if c = '\\' then { r with mode := .escape }
    else if c = ' ' ∨ c = '\t' then { r with mode := .trailer }
    else r.write c

def step (valueOf : String → String) (r : Reading) (c : Char) : Option Reading :=
  match r.mode with
  | .text => some (r.textStep c)
  | .escape => (escaped? c).map r.write
  | .name soFar =>
    if Text.isLetterOrDigit c then some { r with mode := .name (c :: soFar) }
    else if c = '\x7b' ∧ soFar = [] then some { r with mode := .bracedName [] }
    else
      let r := r.refer valueOf soFar
      some (if c = '$' then { r with mode := .name [] } else r.write c)
  | .bracedName soFar =>
    if c = '\x7d' then some (r.refer valueOf soFar)
    else some { r with mode := .bracedName (c :: soFar) }
  | .trailer =>
    if c = ' ' ∨ c = '\t' then some r
    else if c = '#' then some { r with mode := .comment }
    else none
  | .comment => some r

def result? (valueOf : String → String) (r : Reading) : Option String :=
  if r.quote.isSome then none
  else match r.mode with
    | .bracedName _ => none
    | .name soFar => some (String.ofList (r.refer valueOf soFar).written.reverse)
    | _ => some (String.ofList r.written.reverse)

end Reading

def value? (valueOf : String → String) (s : List Char) : Option String :=
  (s.foldlM (Reading.step valueOf) {}).bind (Reading.result? valueOf)

def isNameStart (c : Char) : Bool := c.isAlpha || c == '_'

def isNameChar (c : Char) : Bool := c.isAlphanum || c == '_' || c == '.'

def name? (s : List Char) : Option (List Char × List Char) :=
  if (s.head?.map isNameStart).getD false then
    some (s.takeWhile isNameChar, Text.trimStart (s.dropWhile isNameChar))
  else none

def afterEquals? : List Char → Option (List Char)
  | '=' :: rest => some rest
  | _ => none

/-- The name of an assignment and what follows its equals sign. A word for exporting may stand in
front, but is a name itself where the equals sign follows it. -/
def target? (s : List Char) : Option (List Char × List Char) := do
  let (name, rest) ← name? s
  match afterEquals? rest with
  | some value => return (name, value)
  | none =>
    if name = "export".toList then
      let (name, rest) ← name? rest
      return (name, ← afterEquals? rest)
    else none

inductive Line
  | blank
  | assigns (name value : String)
  deriving DecidableEq

def line? (valueOf : String → String) (s : List Char) : Option Line := do
  let s := Text.trimStart (Text.trimEnd s)
  if s.isEmpty ∨ s.head? = some '#' then return .blank
  else
    let (name, rest) ← target? s
    let rest := Text.trimStart rest
    let value ← if rest.isEmpty ∨ rest.head? = some '#' then some "" else value? valueOf rest
    return .assigns (String.ofList name) value

end TemplateTrace.Assignment
