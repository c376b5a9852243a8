import Declarations.Text.Blank

/-!
# The budget of a resolution

The number of passes that a resolution may make. It can be set by a text, such as the value of an
environment variable; a text that is not a positive number leaves the standard budget.
-/

namespace Declarations

/-- The largest number of passes. -/
structure Budget where
  maxPasses : Nat
  deriving DecidableEq, Repr

namespace Budget

def standard : Budget := ⟨32⟩

instance : Inhabited Budget := ⟨standard⟩

/-- A budget of at least one pass. -/
def ofPasses (passes : Nat) : Budget := ⟨max passes 1⟩

/-- The value of a run of ASCII digits; an empty run or any other character has none. -/
def digitsValue? (chars : List Char) : Option Nat :=
  if !chars.isEmpty && chars.all Char.isDigit then
    some (chars.foldl (fun value digit => 10 * value + (digit.toNat - '0'.toNat)) 0)
  else none

/-- The number of sixty-four bits that the characters spell, with or without a plus sign. -/
def readNumber? (chars : List Char) : Option Nat :=
  let digits :=
    match chars with
    | '+' :: rest => rest
    | _ => chars
  (digitsValue? digits).filter (· < UInt64.size)

/-- The budget that a text asks for, blanks around the number apart. -/
def ofText (text : Option String) : Budget :=
  match text.bind fun given => readNumber? (Text.trimBlank given.toList) with
  | some passes => if 0 < passes then ⟨passes⟩ else standard
  | none => standard

end Budget

end Declarations
