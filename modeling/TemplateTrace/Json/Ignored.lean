import TemplateTrace.Json.Numeral

namespace TemplateTrace.Json.Reader

def ignoredText : Nat → Reader Unit
  | 0 => fail .endInText .here
  | steps + 1 => do
    match ← peek with
    | none => fail .endInText .here
    | some b =>
      if b < 0x20 then fail .controlCharacter .here
      else
        skip
        if b = byte '"' then return ()
        else if b = byte '\\' then
          match ← next with
          | none => fail .endInText .here
          | some c =>
            if c = byte 'u' then
              let _ ← unit16
              ignoredText steps
            else if (plainEscape? c).isSome then ignoredText steps
            else fail .invalidEscape .here
        else ignoredText steps

def ignoredTextBody : Reader Unit := do
  ignoredText ((← get).length + 1)

def ignoredExponent : Reader Unit := do
  skip
  let sign ← peek
  if sign = some (byte '+') ∨ sign = some (byte '-') then skip
  match ← next with
  | some b =>
    if isDigit b then
      let _ ← digits
    else fail .invalidNumber .here
  | none => fail .invalidNumber .here

def ignoredNumeral : Reader Unit := do
  match ← next with
  | none => fail .invalidNumber .here
  | some b =>
    if b = byte '0' then
      if ((← peek).any isDigit) then fail .invalidNumber .ahead
    else if isDigit b then
      let _ ← digits
    else fail .invalidNumber .here
  if (← peek) = some (byte '.') then
    skip
    if (← digits).isEmpty then fail .invalidNumber .ahead
  if isExponentMark (← peek) then ignoredExponent

inductive Container
  | list
  | object
  deriving DecidableEq

def ignoredStart : Reader (Option Container) := do
  let b ← startOfValue
  if b = byte '[' then skip; return some .list
  else if b = byte '{' then skip; return some .object
  else do
    if b = byte 'n' then skip; wordOf "ull"
    else if b = byte 't' then skip; wordOf "rue"
    else if b = byte 'f' then skip; wordOf "alse"
    else if b = byte '-' then skip; ignoredNumeral
    else if isDigit b then ignoredNumeral
    else if b = byte '"' then skip; ignoredTextBody
    else fail .noValue .ahead
    return none

/-- Closes containers, innermost first, as far as their ends follow. Stops in front of the next
value or member, with the containers that are still open. -/
def ignoredEnds : Bool → List Container → Reader (List Container)
  | _, [] => return []
  | afterValue, c :: outer => do
    match ← peekToken, c with
    | none, .list => fail .endInList .ahead
    | none, .object => fail .endInObject .ahead
    | some b, _ =>
      let close := match c with | .list => byte ']' | .object => byte '}'
      if b = close then
        skip
        ignoredEnds true outer
      else if afterValue then
        if b = byte ',' then
          skip
          return c :: outer
        else fail (match c with | .list => .noListComma | .object => .noObjectComma) .ahead
      else return c :: outer

def ignoredKey : Reader Unit := do
  match ← peekToken with
  | none => fail .endInObject .ahead
  | some b => if b = byte '"' then skip else fail .keyNotText .ahead
  ignoredTextBody
  match ← peekToken with
  | none => fail .endInObject .ahead
  | some b => if b = byte ':' then skip else fail .noColon .ahead

def ignoredWithin : Nat → List Container → Reader Unit
  | 0, _ => return ()
  | steps + 1, outer => do
    let opened ← ignoredStart
    let unclosed := opened.toList ++ outer
    match ← ignoredEnds opened.isNone unclosed with
    | [] => return ()
    | .list :: outer => ignoredWithin steps (.list :: outer)
    | .object :: outer =>
      ignoredKey
      ignoredWithin steps (.object :: outer)

def ignored : Reader Unit := do
  ignoredWithin ((← get).length + 1) []

end TemplateTrace.Json.Reader
