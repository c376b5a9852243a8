/-!
# Codes of diagnostics

Every diagnostic has a code for what went wrong. Codes are read without regard to case; the
letter `E` is the capital of no character but `e`, so folding ASCII letters is enough.
-/

namespace Declarations

/-- What a diagnostic is about. -/
inductive Code where
  | unresolvedReference
  | impossibleIncrement
  | notAType
  | duplicateMember
  | incrementOverflow
  | notAValue
  | internalError
  deriving DecidableEq, Repr

namespace Code

/-- All codes. -/
def all : List Code :=
  [.unresolvedReference, .impossibleIncrement, .notAType, .duplicateMember, .incrementOverflow,
    .notAValue, .internalError]

/-- The code as it is printed. -/
def text : Code → String
  | .unresolvedReference => "E2001"
  | .impossibleIncrement => "E2002"
  | .notAType => "E2003"
  | .duplicateMember => "E2004"
  | .incrementOverflow => "E2005"
  | .notAValue => "E2006"
  | .internalError => "E9001"

/-- What the code stands for, in words. -/
def description : Code → String
  | .unresolvedReference => "unresolved reference"
  | .impossibleIncrement => "impossible increment"
  | .notAType => "not a type"
  | .duplicateMember => "duplicate member"
  | .incrementOverflow => "enumerator value overflow"
  | .notAValue => "not a value"
  | .internalError => "internal compiler error"

/-- Whether the fault is in the compiler and not in its input. -/
def isInternal (code : Code) : Bool := code == .internalError

/-- Whether the fault was found while resolving an input. -/
def isResolution (code : Code) : Bool := !code.isInternal

/-- The code that a text spells, in either case. -/
def ofText? (text : String) : Option Code :=
  let capital := text.map Char.toUpper
  all.find? fun code => code.text == capital

end Code

end Declarations
