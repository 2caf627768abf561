
namespace TemplateTrace.Digits

def value? (base : Nat) (c : Char) : Option Nat :=
  let n :=
    if c.isDigit then some (c.toNat - '0'.toNat)
    else if c.isLower then some (c.toNat - 'a'.toNat + 10)
    else if c.isUpper then some (c.toNat - 'A'.toNat + 10)
    else none
  n.filter (· < base)

def natural? (base : Nat) (digits : List Char) : Option Nat :=
  if digits.isEmpty then none
  else digits.foldlM (fun n c => (value? base c).map (n * base + ·)) 0

def splitSign : List Char → Bool × List Char
  | '-' :: rest => (true, rest)
  | '+' :: rest => (false, rest)
  | s => (false, s)

def signed (isNegative : Bool) (n : Nat) : Int := if isNegative then -n else n

def fits (n : Int) : Bool := -0x8000000000000000 ≤ n && n < 0x8000000000000000

def integer? (s : List Char) : Option Int :=
  let (isNegative, digits) := splitSign s
  ((natural? 10 digits).map (signed isNegative)).filter fits

end TemplateTrace.Digits
