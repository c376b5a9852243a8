import Mathlib.Data.Set.Card
import Mathlib.Logic.Relation
import Declarations.Proofs.Advance

/-!
# Trees in a store

The nodes of a store hold each other. When no node is below itself, every node has a rank that is
above the rank of all it holds and not above the size of the store. When moreover no node is held by
two others, a node has only one module around it, from whichever listed module it is reached.
-/

namespace Declarations

namespace Content

variable {child : NodeId}

theorem mem_children_module {data : Module} :
    child ∈ (Content.module data).children ↔ child ∈ data.declarations := by
  simp [children, stages]

theorem mem_children_cover {data : Cover} :
    child ∈ (Content.cover data).children ↔ child ∈ data.fromType.toList := by
  simp [children, stages]

theorem mem_children_enum {data : Enumeration} :
    child ∈ (Content.enum data).children ↔
      child ∈ data.members.ids ∨ child ∈ data.underlying.explicit?.toList := by
  simp [children, stages]

theorem mem_children_element {data : Element} :
    child ∈ (Content.element data).children ↔ child ∈ data.value.toList := by
  simp [children, stages]

theorem mem_children_variable {data : Variable} :
    child ∈ (Content.variable data).children ↔
      child ∈ data.type.toList ∨ child ∈ data.value.toList := by
  simp [children, stages]

end Content

namespace Store

/-- One node holds another. -/
def Holds (store : Store) (parent child : NodeId) : Prop := child ∈ store.children parent

/-- No node is below itself. -/
def Acyclic (store : Store) : Prop := ∀ id, ¬ Relation.TransGen store.Holds id id

/-- Whether there is a node with a number. -/
def Present (store : Store) (id : NodeId) : Prop := (store.content? id).isSome = true

/-- The nodes of the store form trees. -/
structure Forest (store : Store) : Prop where
  acyclic : store.Acyclic
  present : ∀ {parent child}, store.Holds parent child → store.Present child
  parent_unique : ∀ {parent other child},
    store.Holds parent child → store.Holds other child → parent = other

theorem holds_iff {store : Store} {parent child : NodeId} :
    store.Holds parent child ↔
      ∃ content, store.content? parent = some content ∧ child ∈ content.children := by
  rw [Holds, children]
  cases store.content? parent with
  | none => simp
  | some content => simp

theorem Advances.holds_iff {first second : Store} (advances : first.Advances second)
    {parent child : NodeId} : second.Holds parent child ↔ first.Holds parent child := by
  rw [Holds, Holds, advances.children_eq]

theorem Advances.present_iff {first second : Store} (advances : first.Advances second)
    {id : NodeId} : second.Present id ↔ first.Present id := by
  rw [Present, Present, Option.isSome_iff_ne_none, Option.isSome_iff_ne_none, Ne, Ne,
    advances.content?_eq_none]

theorem Advances.holds_eq {first second : Store} (advances : first.Advances second) :
    second.Holds = first.Holds := by
  funext parent child
  exact propext advances.holds_iff

theorem Advances.acyclic {first second : Store} (advances : first.Advances second)
    (acyclic : first.Acyclic) : second.Acyclic := by
  rw [Acyclic, advances.holds_eq]
  exact acyclic

theorem present_iff {store : Store} {id : NodeId} : store.Present id ↔ id.index < store.size := by
  have missing := store.get?_eq_none_iff id
  rw [Present, content?, Option.isSome_map, Option.isSome_iff_ne_none, Ne, missing, Nat.not_le]

theorem Holds.present {store : Store} {parent child : NodeId} (held : store.Holds parent child) :
    store.Present parent := by
  obtain ⟨content, found, -⟩ := holds_iff.mp held
  rw [Present, found]
  rfl

/-- No node is below itself where a rank goes down from every node to what it holds. -/
theorem acyclic_of_descending {store : Store} (rank : NodeId → Nat)
    (descends : ∀ parent < store.size, ∀ child ∈ store.children ⟨parent⟩,
      rank child < rank ⟨parent⟩) : store.Acyclic := by
  intro id cycle
  have below : ∀ {last}, Relation.TransGen store.Holds id last → rank last < rank id := by
    intro last chain
    induction chain with
    | single held => exact descends _ (present_iff.mp held.present) _ held
    | tail _ held ih => exact (descends _ (present_iff.mp held.present) _ held).trans ih
  exact Nat.lt_irrefl _ (below cycle)

/-- Nodes that hold only nodes allocated before them are not below themselves. -/
theorem acyclic_of_earlier {store : Store}
    (earlier : ∀ parent < store.size, ∀ child ∈ store.children ⟨parent⟩, child.index < parent) :
    store.Acyclic :=
  acyclic_of_descending NodeId.index earlier

/-- Nodes that hold only nodes allocated before them, each of which one node holds, form trees. -/
theorem forest_of_earlier {store : Store}
    (earlier : ∀ parent < store.size, ∀ child ∈ store.children ⟨parent⟩, child.index < parent)
    (single : ∀ parent < store.size, ∀ other < store.size,
      ∀ child ∈ store.children ⟨parent⟩, child ∈ store.children ⟨other⟩ → parent = other) :
    store.Forest where
  acyclic := acyclic_of_earlier earlier
  present held :=
    have inside := present_iff.mp held.present
    present_iff.mpr ((earlier _ inside _ held).trans inside)
  parent_unique held heldOther := congrArg NodeId.mk
    (single _ (present_iff.mp held.present) _ (present_iff.mp heldOther.present) _ held heldOther)

/-! ## Ranks -/

theorem setOf_present_subset (store : Store) :
    {id | store.Present id} ⊆ ((Finset.range store.size).image NodeId.mk : Finset NodeId) := by
  intro id present
  rw [Finset.coe_image, Finset.coe_range]
  exact ⟨id.index, present_iff.mp present, rfl⟩

theorem finite_present (store : Store) : {id | store.Present id}.Finite :=
  (Finset.finite_toSet _).subset store.setOf_present_subset

theorem ncard_present_le (store : Store) : {id | store.Present id}.ncard ≤ store.size := by
  have bound := Set.ncard_le_ncard store.setOf_present_subset (Finset.finite_toSet _)
  rw [Set.ncard_coe_finset] at bound
  have images : ((Finset.range store.size).image NodeId.mk).card ≤ (Finset.range store.size).card :=
    Finset.card_image_le
  rw [Finset.card_range] at images
  exact bound.trans images

/-- The nodes at and below a node. -/
def subtree (store : Store) (id : NodeId) : Set NodeId :=
  {other | Relation.ReflTransGen store.Holds id other ∧ store.Present other}

/-- The number of nodes at and below a node. -/
noncomputable def rank (store : Store) (id : NodeId) : Nat := (store.subtree id).ncard

theorem rank_le_size (store : Store) (id : NodeId) : store.rank id ≤ store.size := by
  have inside : store.subtree id ⊆ {other | store.Present other} := fun _ member => member.2
  exact (Set.ncard_le_ncard inside store.finite_present).trans store.ncard_present_le

/-- A node has fewer nodes at and below it than a node that holds it and is not below it. -/
theorem Holds.rank_lt {store : Store} {parent child : NodeId} (held : store.Holds parent child)
    (apart : ¬ Relation.ReflTransGen store.Holds child parent) :
    store.rank child < store.rank parent := by
  have finite : (store.subtree parent).Finite :=
    store.finite_present.subset fun _ member => member.2
  refine Set.ncard_lt_ncard ⟨?_, ?_⟩ finite
  · intro other member
    exact ⟨.head held member.1, member.2⟩
  · intro back
    have member : parent ∈ store.subtree child := back ⟨.refl, held.present⟩
    exact apart member.1

theorem Acyclic.rank_lt {store : Store} (acyclic : store.Acyclic) {parent child : NodeId}
    (held : store.Holds parent child) : store.rank child < store.rank parent :=
  held.rank_lt fun back => acyclic parent (Relation.TransGen.head' held back)

end Store

theorem Path.enclosingModule?_push (path : Path) (id : NodeId) (store : Store) :
    (path.push id).enclosingModule? store =
      if (store.kind? id).any (· == .module) = true then some id
      else path.enclosingModule? store := by
  rw [Path.enclosingModule?, Path.enclosing?, Path.push, List.find?_cons]
  cases (store.kind? id).any (· == .module) <;> rfl

namespace Resolution

/-- Where a walk can meet a node: at the end of a chain of nodes that hold each other, from a listed
module down. -/
inductive Position (resolution : Resolution) : Path → NodeId → Prop
  | root {id : NodeId} (listed : id ∈ resolution.modules) : Position resolution .empty id
  | child {path : Path} {parent child : NodeId} (above : Position resolution path parent)
      (held : resolution.store.Holds parent child) :
      Position resolution (path.push parent) child

/-- Whether a node stands at or below a listed module. -/
def Reachable (resolution : Resolution) (id : NodeId) : Prop :=
  ∃ path, resolution.Position path id

/-- Every number in the list of modules is the number of a module. -/
def ListsModules (resolution : Resolution) : Prop :=
  ∀ id ∈ resolution.modules, (resolution.store.module? id).isSome = true

instance (resolution : Resolution) : Decidable resolution.ListsModules :=
  inferInstanceAs (Decidable (∀ id ∈ resolution.modules, _))

/-- The covers and enumerations at and below the listed modules. -/
def reachableTypes (resolution : Resolution) : Set NodeId :=
  {id | resolution.Reachable id ∧ (resolution.store.kind? id).any Kind.isTypeDecl = true}

/-- The number of covers and enumerations at and below the listed modules. -/
noncomputable def typeCount (resolution : Resolution) : Nat := resolution.reachableTypes.ncard

/-- What the resolution of a tree rests on: walks end, meet no missing node, and find the same
module around a node wherever they meet it. -/
structure WellPlaced (resolution : Resolution) : Prop where
  acyclic : resolution.store.Acyclic
  present : ∀ {path id}, resolution.Position path id → resolution.store.Present id
  scope : ∀ {path other id}, resolution.Position path id → resolution.Position other id →
    (path.push id).enclosingModule? resolution.store =
      (other.push id).enclosingModule? resolution.store

theorem present_of_kind? {store : Store} {id : NodeId} {kind : Kind}
    (known : store.kind? id = some kind) : store.Present id := by
  obtain ⟨content, found, -⟩ := Option.map_eq_some_iff.mp known
  rw [Store.Present, found]
  rfl

theorem kind?_of_module? {store : Store} {id : NodeId}
    (found : (store.module? id).isSome = true) : store.kind? id = some .module := by
  rw [Store.module?] at found
  rw [Store.kind?]
  cases content : store.content? id with
  | none =>
    rw [content] at found
    cases found
  | some value =>
    rw [content] at found
    cases value <;> first | rfl | cases found

theorem finite_reachableTypes (resolution : Resolution) : resolution.reachableTypes.Finite := by
  apply resolution.store.finite_present.subset
  intro id member
  obtain ⟨kind, known, -⟩ := (Option.any_eq_true _ _).mp member.2
  exact present_of_kind? known

theorem typeCount_le_size (resolution : Resolution) :
    resolution.typeCount ≤ resolution.store.size := by
  refine (Set.ncard_le_ncard ?_ resolution.store.finite_present).trans
    resolution.store.ncard_present_le
  intro id member
  obtain ⟨kind, known, -⟩ := (Option.any_eq_true _ _).mp member.2
  exact present_of_kind? known

/-- In a forest the way up from a node is the same whichever module the walk came from. -/
theorem wellPlaced_of_forest {resolution : Resolution} (forest : resolution.store.Forest)
    (lists : resolution.ListsModules) : resolution.WellPlaced where
  acyclic := forest.acyclic
  present position := by
    cases position with
    | root listed => exact present_of_kind? (kind?_of_module? (lists _ listed))
    | child above held => exact forest.present held
  scope position otherPosition := by
    rename_i path other id
    induction position generalizing other with
    | @root id listed =>
      have isModule := kind?_of_module? (lists id listed)
      simp [Path.enclosingModule?_push, isModule]
    | @child path parent child above held ih =>
      rw [Path.enclosingModule?_push (path.push parent) child,
        Path.enclosingModule?_push other child]
      by_cases isModule : (resolution.store.kind? child).any (· == .module) = true
      · rw [if_pos isModule, if_pos isModule]
      · rw [if_neg isModule, if_neg isModule]
        -- a listed node is a module, so both ways come from the one parent
        cases otherPosition with
        | root listed =>
          refine absurd ?_ isModule
          rw [kind?_of_module? (lists child listed)]
          rfl
        | child otherAbove otherHeld =>
          have same := forest.parent_unique otherHeld held
          subst same
          exact ih otherAbove

namespace Advances

variable {first second : Resolution}

theorem position_iff (advances : first.Advances second) {path : Path} {id : NodeId} :
    second.Position path id ↔ first.Position path id := by
  constructor
  · intro position
    induction position with
    | root listed => exact .root (advances.modules ▸ listed)
    | child _ held ih => exact .child ih (advances.store.holds_iff.mp held)
  · intro position
    induction position with
    | root listed => exact .root (advances.modules ▸ listed)
    | child _ held ih => exact .child ih (advances.store.holds_iff.mpr held)

theorem reachableTypes_eq (advances : first.Advances second) :
    second.reachableTypes = first.reachableTypes := by
  ext id
  have reachable : second.Reachable id ↔ first.Reachable id :=
    exists_congr fun path => advances.position_iff
  change (second.Reachable id ∧ _) ↔ (first.Reachable id ∧ _)
  rw [reachable, advances.store.kind?_eq]

theorem wellPlaced (advances : first.Advances second) (placed : first.WellPlaced) :
    second.WellPlaced where
  acyclic := advances.store.acyclic placed.acyclic
  present position :=
    advances.store.present_iff.mpr (placed.present (advances.position_iff.mp position))
  scope position other := by
    have same := placed.scope (advances.position_iff.mp position) (advances.position_iff.mp other)
    have kinds : second.store.kind? = first.store.kind? := funext advances.store.kind?_eq
    simp only [Path.enclosingModule?, Path.enclosing?, kinds] at same ⊢
    exact same

end Advances

/-- The number of types does not depend on the budget. -/
theorem typeCount_withBudget (resolution : Resolution) (budget : Budget) :
    (resolution.withBudget budget).typeCount = resolution.typeCount := by
  have advances : resolution.Advances (resolution.withBudget budget) :=
    ⟨.refl _, rfl, rfl, rfl, fun failed => failed⟩
  rw [typeCount, typeCount, advances.reachableTypes_eq]

end Resolution

end Declarations
