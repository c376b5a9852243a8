import Declarations.Proofs.IdlePass

/-!
# Resolution as a least fixpoint

With a budget above the number of types, the declarations that a run marks form the least set that
obeys the rules of resolution. The rules apply where a walk comes by: a variable that is held as the
value of another is not looked at while the type of the other one is open. Where only literals and
references stand in later stages this is no restriction, and the rules may be read without it.
-/

namespace Declarations

theorem Content.stages_of_isLeaf {content : Content} (leaf : content.kind.isLeaf = true) :
    content.stages = [] := by
  cases content <;> first | rfl | cases leaf

theorem Content.not_isLeaf_of_isDeclaration {content : Content}
    (declares : content.kind.isDeclaration = true) : content.kind.isLeaf = false := by
  cases content <;> first | rfl | cases declares

/-- Only the first stage of a node holds more than literals and references. -/
def Store.LeavesLast (store : Store) : Prop :=
  ∀ node ∈ store.nodes.toList, ∀ child ∈ node.content.stages.tail.flatten,
    (store.kind? child).any Kind.isLeaf = true

instance (store : Store) : Decidable store.LeavesLast :=
  inferInstanceAs (Decidable (∀ node ∈ store.nodes.toList, _))

namespace Resolution

variable {resolution : Resolution}

/-- Where later stages hold leaves only, a walk comes by every other node. -/
theorem Position.reached {path : Path} {id : NodeId} (position : resolution.Position path id)
    (leaves : resolution.store.LeavesLast)
    (inner : ¬ (resolution.store.kind? id).any Kind.isLeaf = true) (resolved : Set NodeId) :
    resolution.Reached resolved path id := by
  induction position with
  | root listed => exact .root listed
  | @child path parent child _ held ih =>
    obtain ⟨content, found, member⟩ := Store.holds_iff.mp held
    obtain ⟨node, stored, rfl⟩ := Store.exists_node found
    cases stages : node.content.stages with
    | nil =>
      rw [Content.children, stages] at member
      cases member
    | cons first later =>
      rw [Content.children, stages, List.flatten_cons] at member
      rcases List.mem_append.mp member with inFirst | inLater
      · have innerParent : ¬ (resolution.store.kind? parent).any Kind.isLeaf = true := by
          rw [Store.kind?, found, Option.map_some, Option.any_some]
          intro leaf
          rw [Content.stages_of_isLeaf leaf] at stages
          cases stages
        have split : node.content.stages = [] ++ first :: later := stages
        exact .child (ih innerParent) found split (List.forall_mem_nil _) inFirst
      · have isLeaf := leaves node stored child (by rw [stages]; exact inLater)
        exact absurd isLeaf inner

/-- Where later stages hold leaves only, it makes no difference where the rules are applied. -/
theorem closedAt_position_iff (leaves : resolution.store.LeavesLast) (resolved : Set NodeId) :
    resolution.ClosedAt resolution.Position resolved ↔ resolution.Closed resolved := by
  constructor
  · intro closed path id content reached
    exact closed reached.position
  · intro closed path id content position found declares
    have inner : ¬ (resolution.store.kind? id).any Kind.isLeaf = true := by
      rw [Store.kind?, found, Option.map_some, Option.any_some,
        Content.not_isLeaf_of_isDeclaration declares]
      exact Bool.false_ne_true
    exact closed (position.reached leaves inner resolved) found declares

/-- The declarations that a run marks are the least set that obeys the rules of resolution. -/
theorem run_isLeast (fresh : resolution.store.Fresh) (forest : resolution.store.Forest)
    (lists : resolution.ListsModules)
    (enough : resolution.typeCount < resolution.budget.maxPasses) :
    IsLeast {resolved | resolution.Closed resolved}
      {id | resolution.Reachable id ∧ resolution.run.2.store.isResolved id = true} ∧
    (resolution.store.LeavesLast →
      IsLeast {resolved | resolution.ClosedAt resolution.Position resolved}
        {id | resolution.Reachable id ∧ resolution.run.2.store.isResolved id = true}) := by
  have placed := wellPlaced_of_forest forest lists
  have least : IsLeast {resolved | resolution.Closed resolved}
      {id | resolution.Reachable id ∧ resolution.run.2.store.isResolved id = true} := by
    rw [run_store]
    exact isLeast_passesOfRun fresh placed enough
  refine ⟨least, ?_⟩
  intro leaves
  have same : {resolved | resolution.ClosedAt resolution.Position resolved} =
      {resolved | resolution.Closed resolved} :=
    Set.ext fun resolved => closedAt_position_iff leaves resolved
  rw [same]
  exact least

/-- A module with a cover that names a later cover, a third that names nothing, and a variable. -/
def coverChain : Resolution :=
  ofModules
    ⟨#[⟨.typeRef { name := ⟨2⟩ }, ⟨10, 15⟩⟩,
      ⟨.cover { header := { name := ⟨1⟩ }, fromType := some ⟨0⟩ }, ⟨0, 15⟩⟩,
      ⟨.typeRef { name := ⟨3⟩ }, ⟨28, 31⟩⟩,
      ⟨.cover { header := { name := ⟨2⟩ }, fromType := some ⟨2⟩ }, ⟨16, 31⟩⟩,
      ⟨.typeRef { name := ⟨4⟩ }, ⟨42, 49⟩⟩,
      ⟨.cover { header := { name := ⟨5⟩ }, fromType := some ⟨4⟩ }, ⟨32, 49⟩⟩,
      ⟨.typeRef { name := ⟨1⟩ }, ⟨57, 60⟩⟩,
      ⟨.nameRef { path := [⟨6⟩] }, ⟨63, 67⟩⟩,
      ⟨.variable { header := { name := ⟨6⟩ }, type := some ⟨6⟩, value := some ⟨7⟩ }, ⟨50, 67⟩⟩,
      ⟨.module
        { name := ⟨7⟩
          declarations := [⟨1⟩, ⟨3⟩, ⟨5⟩, ⟨8⟩]
          symbols := [(⟨1⟩, ⟨1⟩), (⟨2⟩, ⟨3⟩), (⟨5⟩, ⟨5⟩), (⟨6⟩, ⟨8⟩)] }, ⟨0, 67⟩⟩]⟩
    (.ofTexts ["Age", "Count", "Int", "Nowhere", "Lost", "self", "main"]) [⟨9⟩]

theorem run_isLeast_coverChain :
    IsLeast {resolved | coverChain.ClosedAt coverChain.Position resolved}
      {id | coverChain.Reachable id ∧ coverChain.run.2.store.isResolved id = true} ∧
    coverChain.run.2.store.isResolved ⟨1⟩ = true ∧
    coverChain.run.2.store.isResolved ⟨5⟩ = false := by
  have fresh : coverChain.store.Fresh := by decide
  have forest : coverChain.store.Forest := Store.forest_of_earlier (by decide) (by decide)
  have few : coverChain.typeCount ≤ 10 := typeCount_le_size coverChain
  have enough : coverChain.typeCount < coverChain.budget.maxPasses := by
    show coverChain.typeCount < 32
    omega
  exact ⟨(run_isLeast fresh forest (by decide) enough).2 (by decide), by decide, by decide⟩

/-- A variable of an unknown type with another variable as its value. -/
def unknownType : Resolution :=
  (ofModules
    ⟨#[⟨.variable { header := { name := ⟨1⟩ } }, ⟨0, 0⟩⟩,
      ⟨.typeRef { name := ⟨2⟩ }, ⟨0, 0⟩⟩,
      ⟨.variable { header := { name := ⟨3⟩ }, type := some ⟨1⟩, value := some ⟨0⟩ }, ⟨0, 0⟩⟩,
      ⟨.module
        { name := ⟨4⟩
          declarations := [⟨2⟩]
          symbols := [(⟨3⟩, ⟨2⟩)] }, ⟨0, 0⟩⟩]⟩
    (.ofTexts ["y", "Missing", "x", "m"]) [⟨3⟩]).withBudget ⟨5⟩

/-- Applied at all places, the rules ask for more than a run marks: the inner variable needs
nothing, but it is not looked at while the type of the outer one is open. -/
theorem not_isLeast_unknownType :
    unknownType.store.Fresh ∧ unknownType.store.Forest ∧ unknownType.ListsModules ∧
      unknownType.typeCount < unknownType.budget.maxPasses ∧
      ¬ IsLeast {resolved | unknownType.ClosedAt unknownType.Position resolved}
        {id | unknownType.Reachable id ∧ unknownType.run.2.store.isResolved id = true} := by
  have few : unknownType.typeCount ≤ 4 := typeCount_le_size unknownType
  refine ⟨by decide, Store.forest_of_earlier (by decide) (by decide), by decide,
    Nat.lt_succ_of_le few, ?_⟩
  intro least
  have outer : unknownType.Position (Path.empty.push ⟨3⟩) ⟨2⟩ :=
    .child (.root (by decide)) (show (⟨2⟩ : NodeId) ∈ unknownType.store.children ⟨3⟩ by decide)
  have inner : unknownType.Position ((Path.empty.push ⟨3⟩).push ⟨2⟩) ⟨0⟩ :=
    .child outer (show (⟨0⟩ : NodeId) ∈ unknownType.store.children ⟨2⟩ by decide)
  have member := least.1 inner rfl rfl fun child held => nomatch held
  have unresolved : unknownType.run.2.store.isResolved ⟨0⟩ = false := by decide
  rw [member.2] at unresolved
  cases unresolved

end Resolution

end Declarations
