import Declarations.Resolution.Run

/-!
# Walks that keep one path

The path to the node at hand can be handed down anew to every node, or there can be one path for
the whole walk: a node is put at its end before the node is settled, and its last node is taken off
again however that went. A tour is a walk of the second kind. Every step may change its path, so a
node that stayed on it would enclose all that is settled later. A tour notes each call that it
makes, with the path that the call was given and the path that it left.
-/

namespace Declarations

/-- A call to settle a node, with the path before it and after it. -/
structure Stop where
  node : NodeId
  path : Path
  left : Path
  deriving DecidableEq, Repr

/-- A resolution in the course of a walk: the path to the node at hand, and the calls that are over,
the latest first. -/
structure Tour where
  resolution : Resolution
  path : Path := .empty
  stops : List Stop := []

namespace Tour

/-- Go on with the resolution that a step answered with. -/
def answer (tour : Tour) : Progress × Resolution → Progress × Tour
  | (progress, resolution) => (progress, { tour with resolution := resolution })

/-- Do something one node further down, then go up from wherever that left the path. -/
@[inline] def within (tour : Tour) (id : NodeId) (body : Tour → Option (Progress × Tour)) :
    Option (Progress × Tour) := do
  let (progress, tour) ← body { tour with path := tour.path.push id }
  return (progress, { tour with path := tour.path.pop })

/-- Settle a node that stands at the end of the path, given how to settle the nodes below. -/
@[inline] def settle (visit : NodeId → Tour → Option (Progress × Tour)) (id : NodeId)
    (content : Content) (tour : Tour) : Option (Progress × Tour) :=
  match content with
  | .typeRef reference =>
    some (tour.answer (tour.resolution.resolveTypeRef tour.path id reference))
  | .nameRef reference =>
    some (tour.answer (tour.resolution.resolveNameRef tour.path id reference))
  | content =>
    if content.isResolved then some (.done, tour)
    else do
      let (progress, tour) ← Resolution.resolveStages visit content.stages tour
      match progress with
      | .done => return (.done, { tour with resolution := tour.resolution.finish id })
      | .pending => return (.pending, tour)

/-- Settle a node, which is on the path meanwhile. A number that no node has is reported and never
on the path. -/
@[inline] def resolveNode (visit : NodeId → Tour → Option (Progress × Tour)) (id : NodeId)
    (tour : Tour) : Option (Progress × Tour) :=
  match tour.resolution.store.content? id with
  | none =>
    let report := .internalError .nowhere ("unknown node " ++ id.text)
    some (tour.answer (.done, tour.resolution.reportFatal report))
  | some content => tour.within id (settle visit id content)

/-- Settle what can be settled at and below a node, to a depth of so many levels, and note the
call. -/
def resolveWithin : Nat → NodeId → Tour → Option (Progress × Tour)
  | 0, _, _ => none
  | levels + 1, id, tour => do
    let path := tour.path
    let (progress, tour) ← tour.resolveNode (resolveWithin levels) id
    return (progress, { tour with stops := ⟨id, path, tour.path⟩ :: tour.stops })

/-- Settle what can be settled at and below a node, which stands at the end of the path. -/
def resolve (tour : Tour) (id : NodeId) : Progress × Tour :=
  (resolveWithin (tour.resolution.store.size + 1) id tour).getD (.pending, tour)

/-- Walk a list of modules, each from an empty path. -/
def resolveModules : List NodeId → Tour → Progress × Tour
  | [], tour => (.done, tour)
  | id :: rest, tour =>
    let (first, tour) := resolve { tour with path := .empty } id
    let (others, tour) := resolveModules rest tour
    (first.and others, tour)

/-- One pass over all modules. -/
def pass (tour : Tour) : Progress × Tour :=
  resolveModules tour.resolution.modules
    { tour with
      resolution :=
        { tour.resolution with passes := tour.resolution.passes + 1, backlog := .empty } }

end Tour

end Declarations
