import Declarations.Proofs.Pass

/-!
# The course of a pass

A walk comes by the nodes below the node it begins with, at each in some state: all stages before
are done, and of the stage of the node those before it have been visited. `ComesBy` names these
states, and `PassesBy` those of a whole pass. Every one of them is an advance on where the pass
began, so what an advance keeps holds whenever a walk looks at a node.
-/

namespace Declarations.Resolution

/-- The walk that begins at a node comes by the node `node`, at the end of the path `place`, and
finds the resolution as `state` there. -/
inductive ComesBy : Nat → Path → NodeId → Resolution → Path → NodeId → Resolution → Prop
  | here {levels : Nat} {path : Path} {id : NodeId} {start : Resolution} :
      ComesBy (levels + 1) path id start path id start
  | child {levels : Nat} {path : Path} {id : NodeId} {start : Resolution} {content : Content}
      {before after : List (List NodeId)} {early late : List NodeId} {held : NodeId}
      {middle reached : Resolution} {progress : Progress} {place : Path} {node : NodeId}
      {state : Resolution} (found : start.store.content? id = some content)
      (isOpen : content.isMarked = false)
      (split : content.stages = before ++ (early ++ held :: late) :: after)
      (earlier : resolveStages (resolveWithin levels (path.push id)) before start =
        some (.done, middle))
      (siblings : resolveAll (resolveWithin levels (path.push id)) early middle =
        some (progress, reached))
      (comes : ComesBy levels (path.push id) held reached place node state) :
      ComesBy (levels + 1) path id start place node state

/-- What is walked before a child is an advance. -/
theorem advances_before {levels : Nat} {path : Path} {start middle reached : Resolution}
    {before : List (List NodeId)} {early : List NodeId} {progress : Progress}
    (earlier : resolveStages (resolveWithin levels path) before start = some (.done, middle))
    (siblings : resolveAll (resolveWithin levels path) early middle = some (progress, reached)) :
    start.Advances reached := by
  have walks : ∀ child start progress final,
      resolveWithin levels path child start = some (progress, final) → start.Advances final :=
    fun _ _ _ _ walked => Walks.advances walked
  have toMiddle := (visitsStages_of_resolveStages earlier).advances fun child _ => walks child
  have toReached := (visitsAll_of_resolveAll siblings).advances fun child _ => walks child
  exact toMiddle.trans toReached

theorem ComesBy.advances {levels : Nat} {path place : Path} {id node : NodeId}
    {start state : Resolution} (comes : ComesBy levels path id start place node state) :
    start.Advances state := by
  induction comes with
  | here => exact .refl _
  | child _ _ _ earlier siblings _ ih => exact (advances_before earlier siblings).trans ih

/-- The next pass comes by a node, at the end of a path, in some state. -/
def PassesBy (resolution : Resolution) (place : Path) (node : NodeId) (state : Resolution) : Prop :=
  ∃ early id late, resolution.modules = early ++ id :: late ∧
    ComesBy (resolution.store.size + 1) .empty id (resolveModules early resolution.opening).2
      place node state

/-- The walks of the first modules of a pass are an advance on where it began. -/
theorem advances_resolveModules {resolution : Resolution} (acyclic : resolution.store.Acyclic)
    (early : List NodeId) : resolution.Advances (resolveModules early resolution.opening).2 := by
  have opened := advances_opening resolution
  exact opened.trans ((visitsAll_resolveModules acyclic early opened.store).advances
    fun _ _ _ _ _ walked => walked.advances)

theorem PassesBy.advances {resolution state : Resolution} {place : Path} {node : NodeId}
    (passes : resolution.PassesBy place node state) (acyclic : resolution.store.Acyclic) :
    resolution.Advances state := by
  obtain ⟨early, id, late, -, comes⟩ := passes
  exact (advances_resolveModules acyclic early).trans comes.advances

end Declarations.Resolution
