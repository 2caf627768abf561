import TemplateTrace.Json.Fault

/-!
Readers of JSON: each takes what it reads from the bytes that are left, or fails where it stops.
Here are the smallest ones and those of texts. The body of a text is read byte by byte, and only
at its closing quote is it checked to be well-formed.
-/

namespace TemplateTrace.Json

abbrev Reader (α : Type) := StateT Bytes (Except Fault) α

namespace Reader

variable {α : Type}

def fail (cause : Cause) (place : Place) : Reader α := fun s => .error ⟨cause, place, s⟩

def peek : Reader (Option UInt8) := fun s => .ok (s.head?, s)

def next : Reader (Option UInt8) := fun s => .ok (s.head?, s.tail)

def skip : Reader Unit := fun s => .ok ((), s.tail)

def isBlank (b : UInt8) : Bool :=
  b == byte ' ' || b == byte '\n' || b == byte '\t' || b == byte '\r'

def peekToken : Reader (Option UInt8) := fun s =>
  let rest := s.dropWhile isBlank
  .ok (rest.head?, rest)

def startOfValue : Reader UInt8 := do
  match ← peekToken with
  | some b => return b
  | none => fail .endInValue .ahead

def word : Bytes → Reader Unit
  | [] => return ()
  | b :: w => do
    match ← next with
    | none => fail .endInValue .here
    | some c => if c = b then word w else fail .unknownWord .here

def wordOf (s : String) : Reader Unit := word (Text.bytes s)

def hexValue? (b : UInt8) : Option Nat :=
  if byte '0' ≤ b ∧ b ≤ byte '9' then some (b.toNat - '0'.toNat)
  else if byte 'a' ≤ b ∧ b ≤ byte 'f' then some (b.toNat - 'a'.toNat + 10)
  else if byte 'A' ≤ b ∧ b ≤ byte 'F' then some (b.toNat - 'A'.toNat + 10)
  else none

def fourDigits? (a b c d : UInt8) : Option Nat := do
  return (((← hexValue? a) * 16 + (← hexValue? b)) * 16 + (← hexValue? c)) * 16 + (← hexValue? d)

def unit16 : Reader Nat
  | a :: b :: c :: d :: rest =>
    match fourDigits? a b c d with
    | some n => .ok (n, rest)
    | none => .error ⟨.invalidEscape, .here, rest⟩
  | _ => .error ⟨.endInText, .here, []⟩

def pairByte (b : UInt8) : Reader Unit := do
  match ← next with
  | none => fail .endInText .here
  | some c => if c = b then return () else fail .endOfSurrogatePair .here

def isHighSurrogate (n : Nat) : Bool := 0xD800 ≤ n && n ≤ 0xDBFF

def isLowSurrogate (n : Nat) : Bool := 0xDC00 ≤ n && n ≤ 0xDFFF

def escapedChar : Reader Char := do
  let n ← unit16
  if isLowSurrogate n then fail .loneSurrogate .here
  else if isHighSurrogate n then do
    pairByte (byte '\\')
    pairByte (byte 'u')
    let k ← unit16
    if isLowSurrogate k then
      return Char.ofNat ((n - 0xD800) * 0x400 + (k - 0xDC00) + 0x10000)
    else fail .loneSurrogate .here
  else return Char.ofNat n

def plainEscape? (b : UInt8) : Option UInt8 :=
  if b = byte '"' ∨ b = byte '\\' ∨ b = byte '/' then some b
  else if b = byte 'b' then some 0x08
  else if b = byte 'f' then some 0x0C
  else if b = byte 'n' then some 0x0A
  else if b = byte 'r' then some 0x0D
  else if b = byte 't' then some 0x09
  else none

def escape : Reader Bytes := do
  match ← next with
  | none => fail .endInText .here
  | some b =>
    match plainEscape? b with
    | some c => return [c]
    | none =>
      if b = byte 'u' then return String.utf8EncodeChar (← escapedChar)
      else fail .invalidEscape .here

def textBytes : Nat → Bytes → Reader Bytes
  | 0, _ => fail .endInText .here
  | steps + 1, soFar => do
    match ← next with
    | none => fail .endInText .here
    | some b =>
      if b = byte '"' then return soFar.reverse
      else if b = byte '\\' then textBytes steps ((← escape).reverse ++ soFar)
      else if b < 0x20 then fail .controlCharacter .here
      else textBytes steps (b :: soFar)

def textBody : Reader String := fun s => do
  let (b, rest) ← textBytes (s.length + 1) [] s
  match Text.ofBytes? b with
  | some t => return (t, rest)
  | none => throw ⟨.invalidCodePoint, .back (b.length - Text.wellFormedLength b), rest⟩

end Reader

end TemplateTrace.Json
