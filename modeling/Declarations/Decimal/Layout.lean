import Declarations.Decimal.Shortest

/-!
# Floating-point numbers as text

A number is written positionally when its leading digit stands in one of the places from
`10 ^ -4` up to `10 ^ 15`, and then always has a point with a digit on both sides. Otherwise the
leading digit comes first and the power of ten follows an `e`. So the text of a number is never
the text of an integer.
-/

namespace Declarations.Decimal

/-- The powers of ten of the leading digit that are written positionally. -/
def isPositional (lead : Int) : Bool := -4 ≤ lead && lead < 16

def zeros (count : Nat) : List Char := List.replicate count '0'

/-- Digits with the point after the first `point` of them, zeros filling up on either side. -/
def positional (digits : List Char) (point : Int) : List Char :=
  if point ≤ 0 then ['0', '.'] ++ zeros (-point).toNat ++ digits
  else if point < digits.length then
    digits.take point.toNat ++ ['.'] ++ digits.drop point.toNat
  else digits ++ zeros (point.toNat - digits.length) ++ ['.', '0']

/-- Digits with the point after the first of them, and the power of ten of that first. -/
def scientific (digits : List Char) (lead : Int) : List Char :=
  let fraction := digits.drop 1
  digits.take 1 ++ (if fraction.isEmpty then [] else '.' :: fraction) ++
    'e' :: (toString lead).toList

/-- A decimal in the notation that its size asks for. -/
def layout (d : Decimal) : List Char :=
  let digits := Nat.toDigits 10 d.digits
  let point := d.exponent + digits.length
  if isPositional (point - 1) then positional digits point else scientific digits (point - 1)

/-- A minus sign in front of what is negative. -/
def signed (negative : Bool) (chars : List Char) : List Char :=
  if negative then '-' :: chars else chars

/-- The characters of a floating-point number. What is not a number has no sign. -/
def FloatValue.chars : FloatValue → List Char
  | .notANumber => ['N', 'a', 'N']
  | .infinite negative => signed negative ['i', 'n', 'f']
  | .zero negative => signed negative ['0', '.', '0']
  | .finite negative magnitude => signed negative magnitude.shortest.layout

/-- The text of the floating-point number with the given bits. -/
def floatText (bits : UInt64) : String := String.ofList (FloatValue.ofBits bits).chars

end Declarations.Decimal
