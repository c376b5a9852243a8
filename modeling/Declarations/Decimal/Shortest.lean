import Declarations.Decimal.Binary

/-!
# The shortest decimal that reads back

Reading a decimal rounds it to the nearest binary value, and to the one with an even mantissa
when two are equally near. So the decimals that read back as a given value fill an interval
around it, with its ends exactly when the mantissa is even. Among them the fewest digits are
wanted, and of two candidates with as few digits the nearer, or the upper one of two that are
equally near. All comparisons are between natural numbers.
-/

namespace Declarations

/-- The value `digits * 10 ^ exponent`. -/
structure Decimal where
  digits : Nat
  exponent : Int
  deriving DecidableEq, Repr

namespace Decimal

/-- A power, or one if the exponent is negative: the part of a power that multiplies. -/
def power (base : Nat) (exponent : Int) : Nat := Nat.pow base exponent.toNat

/-- Compare `a * 10 ^ i` with `b * 2 ^ j`. -/
def compareScaled (a : Nat) (i : Int) (b : Nat) (j : Int) : Ordering :=
  compare (a * power 10 i * power 2 (-j)) (b * power 2 j * power 10 (-i))

namespace Binary

/-- Whether a decimal lies in the interval of what rounds to the value. The ends are written in
quarters of the last binary place. -/
def readsBack (x : Binary) (d : Decimal) : Bool :=
  let low := compareScaled d.digits d.exponent
    (4 * x.mantissa - if x.halfGapBelow then 1 else 2) (x.exponent - 2)
  let high := compareScaled d.digits d.exponent (4 * x.mantissa + 2) (x.exponent - 2)
  let closed := x.mantissa % 2 == 0
  (low == .gt || closed && low == .eq) && (high == .lt || closed && high == .eq)

/-- The whole number of units `10 ^ unit` in the value. -/
def floorAt (x : Binary) (unit : Int) : Nat :=
  (x.mantissa * power 2 x.exponent * power 10 (-unit)) /
    (power 2 (-x.exponent) * power 10 unit)

/-- The power of ten of the place before the leading digit. No value has more than 324 zeros
after the point, so 330 places more show the leading digit. -/
def leadingPlace (x : Binary) : Int :=
  ((Nat.toDigits 10 (x.floorAt (-330))).length : Int) - 330

/-- Whether the value is at least halfway from `low` units of `10 ^ unit` to the next. -/
def reachesHalf (x : Binary) (low : Nat) (unit : Int) : Bool :=
  compareScaled (2 * low + 1) unit (2 * x.mantissa) x.exponent != .gt

/-- The neighbour of the value among the whole multiples of `10 ^ unit` that reads back, if one
does. -/
def neighbour? (x : Binary) (unit : Int) : Option Decimal :=
  let low := x.floorAt unit
  let below : Decimal := ⟨low, unit⟩
  let above : Decimal := ⟨low + 1, unit⟩
  match x.readsBack below, x.readsBack above with
  | true, true => some (if x.reachesHalf low unit then above else below)
  | true, false => some below
  | false, true => some above
  | false, false => none

/-- The value itself, with as many digits as it takes. -/
def exactDecimal (x : Binary) : Decimal :=
  if 0 ≤ x.exponent then ⟨x.mantissa * power 2 x.exponent, 0⟩
  else ⟨x.mantissa * power 5 (-x.exponent), x.exponent⟩

end Binary

/-- Move trailing zeros from the digits into the exponent; `count` bounds how many. -/
def strip : Nat → Decimal → Decimal
  | 0, d => d
  | count + 1, d =>
    if d.digits % 10 == 0 && d.digits != 0 then strip count ⟨d.digits / 10, d.exponent + 1⟩
    else d

/-- The shortest decimal that reads back: the coarsest place, of at most seventeen digits, that
has one. -/
def Binary.shortest (x : Binary) : Decimal :=
  let place := x.leadingPlace
  let found := (List.range 17).findSome? fun n : Nat => x.neighbour? (place - 1 - n)
  (found.getD x.exactDecimal).strip 18

end Decimal

end Declarations
