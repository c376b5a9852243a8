import Declarations.Resolution.Reference

/-!
# The walk of a pass

A walk settles what it can at and below a node. All children of a stage are visited, also when
one of them stays open; the next stage is entered only when none does. A declaration is marked as
resolved when its last stage is settled, and is not entered again.

The depth of the walk is bounded by a count of levels; `none` says that the count was too small.
A tree never has more levels than its store has nodes.
-/

namespace Declarations.Resolution

/-- Visit every node of a list, and say whether one is still open. -/
@[specialize] def resolveAll {σ : Type} (visit : NodeId → σ → Option (Progress × σ)) :
    List NodeId → σ → Option (Progress × σ)
  | [], state => some (.done, state)
  | id :: rest, state => do
    let (first, state) ← visit id state
    let (others, state) ← resolveAll visit rest state
    return (first.and others, state)

/-- Visit the stages in order, up to the first that leaves something open. -/
@[specialize] def resolveStages {σ : Type} (visit : NodeId → σ → Option (Progress × σ)) :
    List (List NodeId) → σ → Option (Progress × σ)
  | [], state => some (.done, state)
  | stage :: rest, state => do
    let (progress, state) ← resolveAll visit stage state
    match progress with
    | .done => resolveStages visit rest state
    | .pending => return (.pending, state)

/-- Settle a node, given how to settle the nodes below a path. -/
@[inline] def resolveNode
    (visit : Path → NodeId → Resolution → Option (Progress × Resolution))
    (path : Path) (id : NodeId) (resolution : Resolution) : Option (Progress × Resolution) :=
  match resolution.store.content? id with
  | none =>
    some (.done, resolution.reportFatal (.internalError .nowhere ("unknown node " ++ id.text)))
  | some (.typeRef reference) => some (resolution.resolveTypeRef (path.push id) id reference)
  | some (.nameRef reference) => some (resolution.resolveNameRef (path.push id) id reference)
  | some content =>
    if content.isResolved then some (.done, resolution)
    else do
      let (progress, resolution) ← resolveStages (visit (path.push id)) content.stages resolution
      match progress with
      | .done => return (.done, resolution.finish id)
      | .pending => return (.pending, resolution)

/-- Settle what can be settled at and below a node, to a depth of so many levels. -/
def resolveWithin : Nat → Path → NodeId → Resolution → Option (Progress × Resolution)
  | 0, _, _, _ => none
  | levels + 1, path, id, resolution => resolveNode (resolveWithin levels) path id resolution

/-- Settle what can be settled at and below a node, which stands at the end of a path. -/
def resolve (resolution : Resolution) (path : Path) (id : NodeId) : Progress × Resolution :=
  (resolveWithin (resolution.store.size + 1) path id resolution).getD (.pending, resolution)

end Declarations.Resolution
