/-!
# Binary floating-point values

The 64 bits of a floating-point number are a sign, eleven bits of exponent and fifty-two bits of
fraction. They stand for no number, for an infinity, for one of two zeros or for a signed value
`mantissa * 2 ^ exponent`.
-/

namespace Declarations.Decimal

/-- A positive value `mantissa * 2 ^ exponent`. At a power of two the gap to the value below is
half the gap to the value above, which `halfGapBelow` records. -/
structure Binary where
  mantissa : Nat
  exponent : Int
  halfGapBelow : Bool
  deriving DecidableEq, Repr

/-- What the bits of a floating-point number stand for. -/
inductive FloatValue where
  | notANumber
  | infinite (negative : Bool)
  | zero (negative : Bool)
  | finite (negative : Bool) (magnitude : Binary)
  deriving DecidableEq, Repr

/-- Read the three fields of the bits. An exponent field of zero has no implicit leading one. -/
def FloatValue.ofBits (bits : UInt64) : FloatValue :=
  let negative := bits >>> 63 == 1
  let exponent := ((bits >>> 52) &&& 0x7ff).toNat
  let fraction := (bits &&& 0xfffffffffffff).toNat
  if exponent == 0x7ff then
    if fraction == 0 then .infinite negative else .notANumber
  else if exponent == 0 then
    if fraction == 0 then .zero negative else .finite negative ⟨fraction, -1074, false⟩
  else
    .finite negative
      ⟨0x10000000000000 + fraction, (exponent : Int) - 1075, fraction == 0 && 1 < exponent⟩

end Declarations.Decimal
