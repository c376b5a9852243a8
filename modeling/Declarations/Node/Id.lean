/-!
# Node numbers

A node is known by its position in the store that holds it. Positions are given out in the order
of allocation and are never used again.
-/

namespace Declarations

/-- The position of a node in its store. -/
structure NodeId where
  index : Nat
  deriving DecidableEq, Repr

namespace NodeId

/-- The form used in messages. -/
def text (id : NodeId) : String := "#" ++ toString id.index

/-- The form that shows the type as well. -/
def inspect (id : NodeId) : String := "NodeId(" ++ toString id.index ++ ")"

end NodeId

end Declarations
