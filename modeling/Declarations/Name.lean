/-!
# Names

A name stands for a text by its number in a table of texts. Two names are the same exactly when
their numbers are, whatever table they are read in.
-/

namespace Declarations

/-- The number of a text in a name table. -/
structure Name where
  raw : Nat
  deriving DecidableEq, Repr

namespace Name

/-- The name of the empty text, which every table holds first. -/
def empty : Name := ⟨0⟩

instance : Inhabited Name := ⟨empty⟩

def isEmpty (name : Name) : Bool := name == empty

/-- The form of a name that shows its number rather than its text. -/
def inspect (name : Name) : String :=
  "Name(" ++ toString name.raw ++ ")"

end Name

end Declarations
