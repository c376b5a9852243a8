/-!
# Builtin types

The types that every module can name without declaring them, each with the type that stands for
it in the generated code.
-/

namespace Declarations

/-- A type that needs no declaration. -/
inductive Builtin where
  | int
  | float
  | bool
  | string
  | pointer
  deriving DecidableEq, Repr

namespace Builtin

/-- All builtin types, in the order in which a text is compared with them. -/
def all : List Builtin := [.int, .float, .bool, .string, .pointer]

/-- The name by which declarations refer to the type. -/
def text : Builtin → String
  | .int => "Int"
  | .float => "Float"
  | .bool => "Bool"
  | .string => "String"
  | .pointer => "Pointer"

/-- The type that represents it in generated code. -/
def targetType : Builtin → String
  | .int => "int"
  | .float => "double"
  | .bool => "bool"
  | .string => "char*"
  | .pointer => "void*"

/-- The builtin type with exactly this name. -/
def ofText? (text : String) : Option Builtin :=
  all.find? fun builtin => builtin.text == text

end Builtin

end Declarations
