import TemplateTrace.Number.Binary

/-!
The shortest decimal of a binary fraction: on the coarsest decimal grid that has a point in the
interval of numbers that round to the fraction, the point nearest to it. Two layouts write the
digits out: `json` with a point and, far from one, an exponent, and `positional` without either
where the number allows.
-/

namespace TemplateTrace

structure Decimal where
  digits : Nat
  exponent : Int
  deriving DecidableEq

namespace Decimal

/-- The numbers that round to a fraction, in quarters of its last place: below, at and above it;
the ends belong to it when the mantissa is even. -/
def interval (x : Binary) : Nat × Nat × Nat :=
  let below := if x.mantissa = Binary.leastFull ∧ -1074 < x.exponent then 1 else 2
  (4 * x.mantissa - below, 4 * x.mantissa, 4 * x.mantissa + 2)

def onGrid? (x : Binary) (e : Int) : Option Nat :=
  let (lo, mid, hi) := interval x
  let (unit, den) := Binary.scale 1 1 (x.exponent - 2)
  let (unit, den) :=
    if 0 ≤ e then (unit, den * Nat.pow 10 e.toNat)
    else (unit * Nat.pow 10 (-e).toNat, den)
  let inside (n : Nat) : Bool :=
    if x.mantissa % 2 = 0 then lo * unit ≤ n * den && n * den ≤ hi * unit
    else lo * unit < n * den && n * den < hi * unit
  let under := mid * unit / den
  let above := under + 1
  match inside under, inside above with
  | true, true =>
    let down := mid * unit - under * den
    let up := above * den - mid * unit
    some (if down < up ∨ (down = up ∧ under % 2 = 0) then under else above)
  | true, false => some under
  | false, true => some above
  | false, false => none

def shortest (x : Binary) : Decimal :=
  if x.mantissa = 0 then ⟨0, 0⟩
  else
    let grids := (List.range 660).map fun (i : Nat) => (310 : Int) - i
    (grids.findSome? fun e => (onGrid? x e).map fun n => ⟨n, e⟩).getD ⟨0, 0⟩

def zeros (n : Nat) : String := String.ofList (List.replicate n '0')

def parts (d : Decimal) : List Char × Int :=
  let ds := Nat.toDigits 10 d.digits
  (ds, d.exponent + ds.length)

def positional (whole : Bool) (d : Decimal) : String :=
  let (ds, point) := d.parts
  let tail := if whole then ".0" else ""
  if d.digits = 0 then "0" ++ tail
  else if point ≤ 0 then "0." ++ zeros (-point).toNat ++ String.ofList ds
  else if ds.length ≤ point.toNat then
    String.ofList ds ++ zeros (point.toNat - ds.length) ++ tail
  else String.ofList (ds.take point.toNat) ++ "." ++ String.ofList (ds.drop point.toNat)

def scientific (d : Decimal) : String :=
  let (ds, point) := d.parts
  let power := point - 1
  let fraction := if ds.length ≤ 1 then "" else "." ++ String.ofList (ds.drop 1)
  let sign := if power < 0 then "-" else "+"
  String.ofList (ds.take 1) ++ fraction ++ "e" ++ sign ++ toString power.natAbs

def json (d : Decimal) : String :=
  let (_, point) := d.parts
  if d.digits = 0 ∨ (-4 ≤ point ∧ point ≤ 16) then d.positional true else d.scientific

end Decimal

end TemplateTrace
