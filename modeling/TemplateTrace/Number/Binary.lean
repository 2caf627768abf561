
namespace TemplateTrace

structure Binary where
  mantissa : Nat
  exponent : Int
  deriving DecidableEq

namespace Binary

def zero : Binary := ⟨0, -1074⟩

def leastFull : Nat := 0x10000000000000

/-- The quotient rounded to a natural number; a half goes to the even neighbour. -/
def roundDiv (num den : Nat) : Nat :=
  let q := num / den
  let r := num % den
  if 2 * r < den then q
  else if den < 2 * r then q + 1
  else if q % 2 = 0 then q else q + 1

def scale (num den : Nat) (e : Int) : Nat × Nat :=
  if 0 ≤ e then (num * Nat.pow 2 e.toNat, den) else (num, den * Nat.pow 2 (-e).toNat)

def nearest (num den : Nat) : Option Binary :=
  if num = 0 then some zero
  else
    let guess : Int := (num.log2 : Int) - den.log2 - 52
    let (n, d) := scale num den (-guess)
    let e := max (if n < leastFull * d then guess - 1 else guess) (-1074)
    let (n, d) := scale num den (-e)
    let m := roundDiv n d
    let x : Binary := if m = 2 * leastFull then ⟨leastFull, e + 1⟩ else ⟨m, e⟩
    if 971 < x.exponent then none else some x

def ratio (x : Binary) : Nat × Nat := scale x.mantissa 1 x.exponent

def mul (x y : Binary) : Option Binary :=
  nearest (x.ratio.1 * y.ratio.1) (x.ratio.2 * y.ratio.2)

def div (x y : Binary) : Option Binary :=
  nearest (x.ratio.1 * y.ratio.2) (x.ratio.2 * y.ratio.1)

/-- The fraction nearest to `digits * 10 ^ e`. Beyond 400 places either way it is too large or
zero, so longer powers are not computed. -/
def ofDecimal (digits : Nat) (e : Int) : Option Binary :=
  let places : Int := e + (Nat.toDigits 10 digits).length
  if digits = 0 ∨ places < -400 then some zero
  else if 400 < places then none
  else if 0 ≤ e then nearest (digits * Nat.pow 10 e.toNat) 1
  else nearest digits (Nat.pow 10 (-e).toNat)

end Binary

end TemplateTrace
