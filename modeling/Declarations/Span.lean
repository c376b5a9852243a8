/-!
# Source spans

A span is the pair of positions that a node or a message points at. Its text is the two
positions with two points between them.
-/

namespace Declarations

/-- The half-open range of source positions from `start` up to `stop`. -/
structure Span where
  start : Nat
  stop : Nat
  deriving DecidableEq, Repr

namespace Span

/-- The span of what stands nowhere in a source text. -/
def nowhere : Span := ⟨0, 0⟩

instance : Inhabited Span := ⟨nowhere⟩

/-- The two positions as they are written in messages. -/
def text (span : Span) : String :=
  toString span.start ++ ".." ++ toString span.stop

end Span

end Declarations
