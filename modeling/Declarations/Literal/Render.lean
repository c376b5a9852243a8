import Declarations.Decimal.Layout
import Declarations.Literal.Basic
import Declarations.NameTable
import Declarations.Text.Quoted

/-!
# Literals as text

The form in which a literal is written in a declaration: an integer in decimal, a floating number
with a point or an exponent, a string between quotes, a boolean as a word. The four forms never
meet, so the text tells the kind.
-/

namespace Declarations

/-- The text of a literal; strings are read in the table. -/
def Literal.render (names : NameTable) : Literal → String
  | .int value => toString value.toInt
  | .float bits => Decimal.floatText bits
  | .str text => Text.quote (names.text text)
  | .bool value => if value then "true" else "false"

end Declarations
