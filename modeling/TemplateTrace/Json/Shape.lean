import TemplateTrace.Json.Ignored
import TemplateTrace.Table

namespace TemplateTrace.Json

def maxDepth : Nat := 127

namespace Reader

variable {α σ : Type}

def wrongType (wanted : Wanted) : Reader α := do
  let wrong (found : Found) : Reader α := fail (.wrongType found wanted) .here
  let b ← startOfValue
  if b = byte 'n' then skip; wordOf "ull"; wrong .null
  else if b = byte 't' then skip; wordOf "rue"; wrong (.bool true)
  else if b = byte 'f' then skip; wordOf "alse"; wrong (.bool false)
  else if b = byte '-' then skip; wrong (← numeral true).found
  else if isDigit b then wrong (← numeral false).found
  else if b = byte '"' then skip; wrong (.text (← textBody))
  else if b = byte '[' then wrong .sequence
  else if b = byte '{' then wrong .object
  else fail .noValue .ahead

def whole (wanted : Wanted) (bound : Nat) : Reader Nat := do
  let b ← startOfValue
  if b = byte '-' ∨ isDigit b then
    if b = byte '-' then skip
    match ← numeral (b = byte '-') with
    | .whole n => if n ≤ bound then return n else fail (.wrongValue n wanted) .here
    | .negative n => fail (.wrongValue (-n) wanted) .here
    | x => fail (.wrongType x.found wanted) .here
  else wrongType wanted

def count : Reader Nat := whole .count maxCount

def count32 : Reader Nat := whole .count32 maxCount32

def text : Reader String := do
  if (← startOfValue) = byte '"' then skip; textBody
  else wrongType .text

/-- Runs the reader of a container's content and then that of its end. A fault of the content
wins; one that has no place yet is placed where the end, or the attempt at it, stops. -/
def closedBy (content : Reader α) (close : Reader Unit) : Reader α := fun s =>
  match content s with
  | .ok (a, rest) =>
    match close rest with
    | .ok (_, rest) => .ok (a, rest)
    | .error f => .error f
  | .error f =>
    if f.place = .unplaced then
      match close f.rest with
      | .ok (_, rest) => .error ⟨f.cause, .here, rest⟩
      | .error g => .error ⟨f.cause, .here, g.rest⟩
    else .error f

def endOfList : Reader Unit := do
  match ← peekToken with
  | none => fail .endInList .ahead
  | some b =>
    if b = byte ']' then skip
    else if b = byte ',' then do
      skip
      if (← peekToken) = some (byte ']') then fail .trailingComma .ahead
      else fail .trailingCharacters .ahead
    else fail .trailingCharacters .ahead

def endOfObject : Reader Unit := do
  match ← peekToken with
  | none => fail .endInObject .ahead
  | some b =>
    if b = byte '}' then skip
    else if b = byte ',' then fail .trailingComma .ahead
    else fail .trailingCharacters .ahead

def hasElement (first : Bool) : Reader Bool := do
  match ← peekToken with
  | none => fail .endInList .ahead
  | some b =>
    if b = byte ']' then return false
    else if first then return true
    else if b = byte ',' then do
      skip
      match ← peekToken with
      | none => fail .endInValue .ahead
      | some b => if b = byte ']' then fail .trailingComma .ahead else return true
    else fail .noListComma .ahead

def hasMember (first : Bool) : Reader Bool := do
  match ← peekToken with
  | none => fail .endInObject .ahead
  | some b =>
    if b = byte '}' then return false
    else if first then
      if b = byte '"' then skip; return true
      else fail .keyNotText .ahead
    else if b = byte ',' then do
      skip
      match ← peekToken with
      | none => fail .endInValue .ahead
      | some b =>
        if b = byte '"' then skip; return true
        else if b = byte '}' then fail .trailingComma .ahead
        else fail .keyNotText .ahead
    else fail .noObjectComma .ahead

def colon : Reader Unit := do
  match ← peekToken with
  | none => fail .endInObject .ahead
  | some b => if b = byte ':' then skip else fail .noColon .ahead

def elements (element : Reader α) : Nat → List α → Reader (List α)
  | 0, soFar => return soFar.reverse
  | steps + 1, soFar => do
    if ← hasElement soFar.isEmpty then elements element steps ((← element) :: soFar)
    else return soFar.reverse

def members (member : σ → Reader σ) : Nat → Bool → σ → Reader σ
  | 0, _, a => return a
  | steps + 1, first, a => do
    if ← hasMember first then members member steps false (← member a)
    else return a

def stepsLeft : Reader Nat := fun s => .ok (s.length + 1, s)

def sequence (depth : Nat) (element : Nat → Reader α) : Reader (List α) := do
  if (← startOfValue) = byte '[' then
    match depth with
    | 0 => fail .tooDeep .ahead
    | depth + 1 =>
      skip
      closedBy (do elements (element depth) (← stepsLeft) []) endOfList
  else wrongType .sequence

def numberKey : Reader Nat := do
  match ← peek with
  | some b =>
    if b = byte '-' ∨ isDigit b then
      let n ← count
      if (← peek) = some (byte '"') then skip; return n
      else fail .noQuote .ahead
    else fail .keyNotNumber .here
  | none => fail .keyNotNumber .here

def table (depth : Nat) (value : Nat → Reader α) : Reader (Table α) := do
  if (← startOfValue) = byte '{' then
    match depth with
    | 0 => fail .tooDeep .ahead
    | depth + 1 =>
      skip
      let member (t : Table α) : Reader (Table α) := do
        let k ← numberKey
        colon
        return t.insert k (← value depth)
      closedBy (do members member (← stepsLeft) true .empty) endOfObject
  else wrongType .table

def optional (value : Reader α) : Reader (Option α) := do
  if (← peekToken) = some (byte 'n') then skip; wordOf "ull"; return none
  else return some (← value)

/-- A named field of a record that is read into a draft of type `σ`. -/
structure Field (σ : Type) where
  name : String
  omissible : Bool
  isSet : σ → Bool
  read : σ → Reader σ

structure Record (σ α : Type) where
  name : String
  blank : σ
  fields : List (Field σ)
  finish : σ → Except String α

namespace Record

variable (r : Record σ α)

def member (draft : σ) : Reader σ := do
  let key ← textBody
  match r.fields.find? (·.name = key) with
  | some f =>
    if f.isSet draft then fail (.duplicateField f.name) .unplaced
    else
      colon
      f.read draft
  | none =>
    colon
    ignored
    return draft

def complete (draft : σ) : Reader α :=
  match r.finish draft with
  | .ok a => return a
  | .error name => fail (.missingField name) .unplaced

def positional : Nat → List (Field σ) → σ → Reader σ
  | _, [], draft => return draft
  | i, f :: rest, draft => do
    if ← hasElement (i = 0) then positional (i + 1) rest (← f.read draft)
    else if f.omissible then positional (i + 1) rest draft
    else fail (.tooShort i r.name r.fields.length) .unplaced

def ofObject : Reader α := do
  complete r (← members r.member (← stepsLeft) true r.blank)

def ofArray : Reader α := do
  complete r (← positional r 0 r.fields r.blank)

def read (name : String) (r? : Option (Record σ α)) : Reader α := do
  let b ← startOfValue
  if b = byte '{' ∨ b = byte '[' then
    match r? with
    | none => fail .tooDeep .ahead
    | some r =>
      skip
      if b = byte '{' then closedBy r.ofObject endOfObject
      else closedBy r.ofArray endOfList
  else wrongType (.record name)

end Record

end Reader

def parse {α : Type} (value : Reader α) (whole : Bytes) : Except Error α :=
  let reader : Reader α := do
    let a ← value
    match ← Reader.peekToken with
    | none => return a
    | some _ => Reader.fail .trailingCharacters .ahead
  match reader whole with
  | .ok (a, _) => .ok a
  | .error f => .error (f.locate whole)

end TemplateTrace.Json
