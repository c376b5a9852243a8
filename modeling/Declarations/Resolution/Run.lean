import Declarations.Resolution.Walk

/-!
# Passes and runs

A pass walks every module once. A run makes passes until nothing is open or the budget is spent,
and then reports what is still open.
-/

namespace Declarations

/-- How a run ended. -/
inductive Status where
  | resolved
  | unresolved (nodes : List NodeId)
  | failed
  deriving DecidableEq, Repr

/-- The number of passes made so far, and how the run ended. -/
structure Outcome where
  passes : Nat
  status : Status
  deriving DecidableEq, Repr

def Outcome.isResolved (outcome : Outcome) : Bool := outcome.status == .resolved

namespace Resolution

/-- Walk a list of modules, each from the top, and say whether anything is open. -/
def resolveModules : List NodeId → Resolution → Progress × Resolution
  | [], resolution => (.done, resolution)
  | id :: rest, resolution =>
    let (first, resolution) := resolution.resolve .empty id
    let (others, resolution) := resolveModules rest resolution
    (first.and others, resolution)

/-- One pass over all modules. What an earlier pass left open is forgotten. -/
def pass (resolution : Resolution) : Progress × Resolution :=
  resolveModules resolution.modules
    { resolution with passes := resolution.passes + 1, backlog := .empty }

/-- Make passes until one leaves nothing open, at most so many. -/
def passesWithin : Nat → Resolution → Progress × Resolution
  | 0, resolution => (.pending, resolution)
  | count + 1, resolution =>
    let (progress, resolution) := resolution.pass
    match progress with
    | .done => (.done, resolution)
    | .pending => passesWithin count resolution

/-- Report every node that is still open. There is one whenever a pass says that something is. -/
def reportOpen (resolution : Resolution) : Resolution :=
  if resolution.deferrals.isEmpty then
    resolution.reportFatal (.internalError .nowhere "resolution stalled without a pending node")
  else
    { resolution with
      log := resolution.deferrals.foldl
        (fun log deferral =>
          (log.forceError (.unresolvedReference deferral.span deferral.reason)).2)
        resolution.log }

/-- How a run ended whose last pass made this progress. -/
def status (resolution : Resolution) (progress : Progress) : Status :=
  if resolution.failed then .failed
  else
    match progress with
    | .done => .resolved
    | .pending => .unresolved (resolution.deferrals.map Deferral.node)

/-- Make passes until nothing is open or the budget, which allows at least one pass, is spent. -/
def run (resolution : Resolution) : Outcome × Resolution :=
  let (progress, resolution) := passesWithin (max resolution.budget.maxPasses 1) resolution
  let resolution :=
    match progress with
    | .done => resolution
    | .pending => resolution.reportOpen
  (⟨resolution.passes, resolution.status progress⟩, resolution)

end Resolution

end Declarations
