import TemplateTrace.Number.Digits
import TemplateTrace.Number.Shortest
import TemplateTrace.Text.Blank

namespace TemplateTrace

inductive Floating
  | finite (isNegative : Bool) (size : Binary)
  | infinite (isNegative : Bool)
  | notANumber
  deriving DecidableEq

namespace Floating

def sign (isNegative : Bool) : String := if isNegative then "-" else ""

def text : Floating → String
  | finite isNegative size => sign isNegative ++ (Decimal.shortest size).positional false
  | infinite isNegative => sign isNegative ++ "inf"
  | notANumber => "NaN"

def isZero : Floating → Bool
  | finite _ size => size.mantissa = 0
  | _ => false

def exponent? : List Char → Option Int
  | [] => some 0
  | c :: rest =>
    if c = 'e' ∨ c = 'E' then
      let (isNegative, digits) := Digits.splitSign rest
      (Digits.natural? 10 digits).map (Digits.signed isNegative)
    else none

def size? (s : List Char) : Option (Option Binary) := do
  let whole := s.takeWhile Char.isDigit
  let rest := s.dropWhile Char.isDigit
  let (fraction, rest) := match rest with
    | '.' :: rest => (rest.takeWhile Char.isDigit, rest.dropWhile Char.isDigit)
    | rest => ([], rest)
  let digits ← Digits.natural? 10 (whole ++ fraction)
  return Binary.ofDecimal digits ((← exponent? rest) - fraction.length)

def ofText? (s : String) : Option Floating :=
  let (isNegative, rest) := Digits.splitSign s.toList
  let word := Text.lower (String.ofList rest)
  if word = "inf" ∨ word = "infinity" then some (infinite isNegative)
  else if word = "nan" then some notANumber
  else (size? rest).map fun size => match size with
    | some size => finite isNegative size
    | none => infinite isNegative

end Floating

end TemplateTrace
