/-!
# Progress

What a step of the resolution answers: everything it looked at is settled, or something is still
open.
-/

namespace Declarations

/-- Whether anything is still open. -/
inductive Progress where
  | done
  | pending
  deriving DecidableEq, Repr

namespace Progress

def isDone (progress : Progress) : Bool := progress == .done

def isPending (progress : Progress) : Bool := progress == .pending

/-- The progress of two steps together. -/
def and : Progress → Progress → Progress
  | .done, second => second
  | .pending, _ => .pending

end Progress

end Declarations
