import TemplateTrace.Json.Reader
import TemplateTrace.Number.Shortest

/-!
Numerals in JSON. A numeral without a point or an exponent is a whole number if it fits 64 bits;
any other is a fraction, computed from its first digits and a power of ten with one rounding
each.
-/

namespace TemplateTrace.Json

def maxCount : Nat := 0xFFFFFFFFFFFFFFFF

def maxCount32 : Nat := 0xFFFFFFFF

def maxExponent : Nat := 0x7FFFFFFF

inductive Numeral
  | whole (n : Nat)
  | negative (n : Nat)
  | fraction (isNegative : Bool) (x : Binary)
  deriving DecidableEq

namespace Numeral

def found : Numeral → Found
  | whole n => .integer n
  | negative n => .integer (-n)
  | fraction isNegative x => .fraction ((if isNegative then "-" else "") ++ (Decimal.shortest x).json)

end Numeral

namespace Reader

def isDigit (b : UInt8) : Bool := byte '0' ≤ b && b ≤ byte '9'

def digitValue (b : UInt8) : Nat := b.toNat - '0'.toNat

def digits : Reader Bytes := fun s => .ok (s.takeWhile isDigit, s.dropWhile isDigit)

def wholeDigits : Reader Bytes := do
  match ← next with
  | none => fail .endInValue .here
  | some b =>
    if b = byte '0' then
      match ← peek with
      | some c => if isDigit c then fail .invalidNumber .ahead else return [b]
      | none => return [b]
    else if isDigit b then return b :: (← digits)
    else fail .invalidNumber .here

def significand : Nat → Bytes → Nat × Nat
  | n, [] => (n, 0)
  | n, b :: rest =>
    let m := n * 10 + digitValue b
    if maxCount < m then (n, 0)
    else
      let (k, taken) := significand m rest
      (k, taken + 1)

def valueOf (b : Bytes) : Nat := b.foldl (fun n d => n * 10 + digitValue d) 0

def scaled : Nat → Option Binary → Int → Option Binary
  | 0, x, _ => x
  | steps + 1, some x, e =>
    if x.mantissa = 0 then some x
    else if 308 < e then none
    else if 0 ≤ e then do x.mul (← Binary.ofDecimal 1 e)
    else if -308 ≤ e then do x.div (← Binary.ofDecimal 1 (-e))
    else scaled steps (do x.div (← Binary.ofDecimal 1 308)) (e + 308)
  | _, none, _ => none

def fractionOf (isNegative : Bool) (n : Nat) (e : Int) : Reader Numeral :=
  match scaled 4 (Binary.nearest n 1) e with
  | some x => return .fraction isNegative x
  | none => fail .numberOutOfRange .here

def exponentValue : Nat → Bytes → Nat × Bytes × Bool
  | n, [] => (n, [], true)
  | n, b :: rest =>
    let m := n * 10 + digitValue b
    if maxExponent < m then (n, rest, false) else exponentValue m rest

def exponentPart (isNegative : Bool) (n : Nat) (e : Int) : Reader Numeral := do
  skip
  let sign ← peek
  if sign = some (byte '+') ∨ sign = some (byte '-') then skip
  match ← next with
  | none => fail .endInValue .here
  | some b =>
    if isDigit b then
      let before ← get
      let more ← digits
      let (k, unread, fits) := exponentValue (digitValue b) more
      if fits then
        let k : Int := if sign = some (byte '-') then e - k else e + k
        fractionOf isNegative n k
      else if n ≠ 0 ∧ sign ≠ some (byte '-') then do
        set (before.drop (more.length - unread.length))
        fail .numberOutOfRange .here
      else return .fraction isNegative .zero
    else fail .invalidNumber .here

def isExponentMark (b : Option UInt8) : Bool := b == some (byte 'e') || b == some (byte 'E')

def fractionPart (isNegative : Bool) (n : Nat) (e : Int) : Reader Numeral := do
  if (← peek) = some (byte '.') then
    skip
    let ds ← digits
    if ds.isEmpty then
      match ← peek with
      | some _ => fail .invalidNumber .ahead
      | none => fail .endInValue .ahead
    else
      let (n, taken) := significand n ds
      if isExponentMark (← peek) then exponentPart isNegative n (e - taken)
      else fractionOf isNegative n (e - taken)
  else if isExponentMark (← peek) then exponentPart isNegative n e
  else fractionOf isNegative n e

def numeral (isNegative : Bool) : Reader Numeral := do
  let ds ← wholeDigits
  let (n, taken) := significand 0 ds
  let mark ← peek
  if taken < ds.length ∨ mark = some (byte '.') ∨ isExponentMark mark then
    fractionPart isNegative n (ds.length - taken : Nat)
  else if isNegative then
    if n = 0 ∨ 0x8000000000000000 < n then
      fractionOf true n 0
    else return .negative n
  else return .whole n

end Reader

end TemplateTrace.Json
