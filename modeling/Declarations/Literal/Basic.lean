import Declarations.Name

/-!
# Literals and their increments

A literal is a value written in a declaration. Integers have sixty-four signed bits, floating
numbers are kept by their bits, and strings by their name. An enumeration computes the values it
was not given by a repeated increment: a step that is added or multiplied.
-/

namespace Declarations

/-- A value written in a declaration. -/
inductive Literal where
  | int (value : Int64)
  | float (bits : UInt64)
  | str (text : Name)
  | bool (value : Bool)
  deriving DecidableEq

/-- The four kinds of literals. -/
inductive LiteralKind where
  | int
  | float
  | str
  | bool
  deriving DecidableEq, Repr

/-- The word for a kind in messages. -/
def LiteralKind.text : LiteralKind → String
  | .int => "integer"
  | .float => "floating"
  | .str => "string"
  | .bool => "boolean"

namespace Literal

def kind : Literal → LiteralKind
  | .int _ => .int
  | .float _ => .float
  | .str _ => .str
  | .bool _ => .bool

def asInt? : Literal → Option Int64
  | .int value => some value
  | _ => none

def asFloatBits? : Literal → Option UInt64
  | .float bits => some bits
  | _ => none

end Literal

/-- How the step of an increment is applied. -/
inductive IncrementOp where
  | add
  | mul
  deriving DecidableEq, Repr

namespace IncrementOp

def symbol : IncrementOp → Char
  | .add => '+'
  | .mul => '*'

def ofSymbol? : Char → Option IncrementOp
  | '+' => some .add
  | '*' => some .mul
  | _ => none

end IncrementOp

/-- An operation and the step it is applied with. -/
structure Increment where
  op : IncrementOp
  step : Int64
  deriving DecidableEq

/-- Counting up by one. -/
def Increment.standard : Increment := ⟨.add, 1⟩

instance : Inhabited Increment := ⟨Increment.standard⟩

end Declarations
