import Declarations.NameTable
import Declarations.Node.Basic
import Declarations.Output.Writer

/-!
# The size of an enumeration

The expression for the size of an enumeration in generated code. A foreign enumeration is measured
under its own name there; any other is represented by the builtin integer type. A value of the
enumeration has the size of its type.
-/

namespace Declarations

/-- The type whose size is the size of an enumeration. -/
def Enumeration.measuredType (decl : Enumeration) (names : NameTable) : String :=
  if decl.header.isForeign then names.text decl.header.outputName else Builtin.int.targetType

/-- Write the size expression of an enumeration. -/
def Writer.emitSize (writer : Writer) (names : NameTable) (decl : Enumeration) : Writer :=
  ((writer.emit "sizeof(").emit (decl.measuredType names)).emit ")"

end Declarations
