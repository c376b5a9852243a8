import Declarations.Literal.Basic

/-!
# The successor of a literal

Integers and floating numbers have a rule that gives the next value under an increment; strings
and booleans have none. An integer rule works on exact integers and refuses a result that does
not fit sixty-four signed bits. A floating rule refuses a result that is not finite.
-/

namespace Declarations

/-- Why a literal has no next value. -/
inductive IncrementError where
  | unsupported (kind : LiteralKind)
  | overflow
  deriving DecidableEq, Repr

namespace Increment

/-- The exact next integer, whether it fits or not. -/
def applyInt (increment : Increment) (value : Int) : Int :=
  match increment.op with
  | .add => value + increment.step.toInt
  | .mul => value * increment.step.toInt

/-- The next floating number, rounded to nearest; the step is rounded first. -/
def applyFloat (increment : Increment) (value : Float) : Float :=
  match increment.op with
  | .add => value + Float.ofInt increment.step.toInt
  | .mul => value * Float.ofInt increment.step.toInt

end Increment

/-- Whether an integer fits sixty-four signed bits. -/
def fitsInt64 (value : Int) : Bool :=
  -9223372036854775808 ≤ value && value ≤ 9223372036854775807

/-- A function from a literal to the next one. -/
abbrev IncrementRule := Literal → Increment → Except IncrementError Literal

/-- The rule for integers. -/
def incrementInt : IncrementRule
  | .int value, increment =>
    let next := increment.applyInt value.toInt
    if fitsInt64 next then .ok (.int (Int64.ofInt next)) else .error .overflow
  | other, _ => .error (.unsupported other.kind)

/-- The rule for floating numbers. -/
def incrementFloat : IncrementRule
  | .float bits, increment =>
    let next := increment.applyFloat (Float.ofBits bits)
    if next.isFinite then .ok (.float next.toBits) else .error .overflow
  | other, _ => .error (.unsupported other.kind)

/-- The rule of a kind, if it has one. -/
def LiteralKind.rule? : LiteralKind → Option IncrementRule
  | .int => some incrementInt
  | .float => some incrementFloat
  | .str | .bool => none

/-- The next literal, by the rule of its own kind. -/
def Literal.increment (literal : Literal) (increment : Increment) :
    Except IncrementError Literal :=
  match literal.kind.rule? with
  | some rule => rule literal increment
  | none => .error (.unsupported literal.kind)

end Declarations
