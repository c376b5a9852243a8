import Declarations.Proofs.Run
import Declarations.Proofs.Traversal

/-!
# What a successful run can be trusted for

Later work reads a resolved program by traversals. The walk of a resolution and a traversal go
through a tree in different ways: a walk skips what bears its mark, stops at what is open and counts
what it gives up as done. The main statement is that after a run which says that all is resolved
none of this shows: whatever a traversal comes by is there, bound and marked.
-/

namespace Declarations

namespace Resolution

/-- References are given up only by a failure. -/
def OwnsUp (resolution : Resolution) : Prop :=
  ∀ id, resolution.store.isGivenUp id = true → resolution.failed = true

variable {resolution : Resolution}

theorem OwnsUp.of_fresh (fresh : resolution.store.Fresh) : resolution.OwnsUp := by
  intro id givenUp
  rw [fresh.not_isGivenUp] at givenUp
  cases givenUp

theorem keeps_ownsUp (At : Path → NodeId → Prop) (Kept : NodeId → Prop) (base : Resolution) :
    Keeps At Kept base OwnsUp where
  missing _ _ _ _ := fun _ _ => rfl
  bind _ _ owns found isReference isOpen judged := by
    intro id givenUp
    rw [isGivenUp_bind found isReference isOpen judged] at givenUp
    exact owns id givenUp
  wait _ _ owns _ _ _ _ := owns
  reject _ _ _ _ _ _ _ := fun _ _ => rfl
  finish _ _ owns _ _ := by
    intro id givenUp
    rw [isGivenUp_finish] at givenUp
    exact owns id givenUp

/-- What a traversal comes by is settled, if the module at which it starts is. -/
theorem Justified.settled_of_meets {At : Path → NodeId → Prop} {Kept : NodeId → Prop}
    {base current : Resolution} (justified : Justified At Kept base current)
    (fresh : base.store.Fresh) {start held : Slot × NodeId}
    (settled : current.store.Settled (current.failed = true) start.2)
    (meets : current.store.Meets start held) :
    current.store.Settled (current.failed = true) held.2 := by
  induction meets with
  | refl => exact settled
  | tail _ offers ih =>
    obtain ⟨content, found, -, member⟩ := offers
    exact justified.settled_below fresh ih found (Content.mem_children_of_mem_slots member)

/-- A walk may come by anywhere. -/
theorem route_anywhere (base : Resolution) :
    Route (fun _ _ => True) (fun _ => True) base where
  root _ := trivial
  below _ _ _ _ _ _ := trivial
  keeps _ _ _ _ _ := trivial

section Resolved

variable (fresh : resolution.store.Fresh) (acyclic : resolution.store.Acyclic)
  (resolved : resolution.run.1.status = .resolved) {root : NodeId}
  (listed : root ∈ resolution.modules)

include fresh acyclic resolved

/-- At the end of a run that says that all is resolved, all marks have a reason, and none says that
a reference is given up. -/
theorem justified_of_run_resolved :
    Justified (fun _ _ => True) (fun _ => True) resolution resolution.run.2 ∧
      ∀ id content, resolution.run.2.store.content? id = some content →
        content.isGivenUp = false := by
  obtain ⟨passes, unfailed⟩ := passesOfRun_of_resolved resolved
  obtain ⟨justified, owns⟩ := passesOfRun_keeps (route_anywhere resolution)
    (keeps_ownsUp _ _ resolution) acyclic (fun owns => owns) (.of_fresh fresh)
  rw [passes] at justified owns
  refine ⟨justified, ?_⟩
  intro id content found
  cases givenUp : content.isGivenUp with
  | false => rfl
  | true =>
    rw [owns id ((Option.any_eq_true _ _).mpr ⟨content, found, givenUp⟩)] at unfailed
    cases unfailed

include listed

/-- At the end of such a run a traversal of a listed module comes by settled nodes only, none of
them missing. -/
theorem settled_of_run_resolved {held : Slot × NodeId}
    (meets : resolution.run.2.store.Meets (.child, root) held) :
    resolution.run.2.store.Settled False held.2 := by
  obtain ⟨passes, unfailed⟩ := passesOfRun_of_resolved resolved
  have justified := (justified_of_run_resolved fresh acyclic resolved).1
  have settledRoot := settled_of_passesOfRun acyclic (congrArg Prod.fst passes) listed
  rw [passes] at settledRoot
  have settled := justified.settled_of_meets fresh settledRoot meets
  refine settled.mono (.refl _) ?_
  intro failed
  rw [unfailed] at failed
  cases failed

/-- What a traversal of a listed module enters bears its mark, and is not given up. -/
theorem marked_of_run_resolved {kind : Kind} {id : NodeId}
    (entered : .enter kind id ∈ resolution.run.2.store.events root) :
    ∃ content, resolution.run.2.store.content? id = some content ∧ content.kind = kind ∧
      (content.isMarkable = true → content.isMarked = true) ∧ content.isGivenUp = false := by
  obtain ⟨justified, notGivenUp⟩ := justified_of_run_resolved fresh acyclic resolved
  have acyclicFinal := justified.advances.store.acyclic acyclic
  obtain ⟨slot, content, meets, found, -, sameKind⟩ :=
    (Store.enter_mem_events_iff acyclicFinal).mp entered
  have settled := settled_of_run_resolved fresh acyclic resolved listed meets
  exact ⟨content, found, sameKind, settled.isMarked found, notGivenUp id content found⟩

end Resolved

/-- After a run that says that all is resolved, later work may rely on what it finds by traversing a
listed module: every reference is bound and not given up, every declaration is marked as resolved,
and no node is missing. -/
theorem run_resolved_complete (fresh : resolution.store.Fresh)
    (acyclic : resolution.store.Acyclic) (resolved : resolution.run.1.status = .resolved)
    {root : NodeId} (listed : root ∈ resolution.modules) :
    (∀ id, .enter .typeRef id ∈ resolution.run.2.store.events root →
      ∃ reference, resolution.run.2.store.typeRef? id = some reference ∧
        reference.target.isSome = true ∧ reference.failed = false) ∧
    (∀ id, .enter .nameRef id ∈ resolution.run.2.store.events root →
      ∃ reference, resolution.run.2.store.nameRef? id = some reference ∧
        reference.target.isSome = true ∧ reference.failed = false) ∧
    (∀ kind id, kind.isDeclaration = true →
      .enter kind id ∈ resolution.run.2.store.events root →
      resolution.run.2.store.isResolved id = true) ∧
    ∀ slot id, resolution.run.2.store.Meets (.child, root) (slot, id) →
      resolution.run.2.store.Present id := by
  have marked : ∀ {kind id}, .enter kind id ∈ resolution.run.2.store.events root → _ :=
    marked_of_run_resolved fresh acyclic resolved listed
  refine ⟨?_, ?_, ?_, ?_⟩
  · intro id entered
    obtain ⟨content, found, isTypeRef, marks, notGivenUp⟩ := marked entered
    cases content with
    | typeRef reference =>
      have settled : reference.isSettled = true := marks rfl
      have unfailed : reference.failed = false := notGivenUp
      rw [TypeReference.isSettled, unfailed, Bool.or_false] at settled
      exact ⟨reference, by rw [Store.typeRef?, found], settled, unfailed⟩
    | _ => cases isTypeRef
  · intro id entered
    obtain ⟨content, found, isNameRef, marks, notGivenUp⟩ := marked entered
    cases content with
    | nameRef reference =>
      have settled : reference.isSettled = true := marks rfl
      have unfailed : reference.failed = false := notGivenUp
      rw [NameReference.isSettled, unfailed, Bool.or_false] at settled
      exact ⟨reference, by rw [Store.nameRef?, found], settled, unfailed⟩
    | _ => cases isNameRef
  · intro kind id declares entered
    obtain ⟨content, found, rfl, marks, -⟩ := marked entered
    have isMarked := marks (Content.isMarkable_of_isDeclaration declares)
    exact Store.isResolved_iff.mpr
      ⟨content, found, Content.isResolved_of_isMarked declares isMarked⟩
  · intro slot id meets
    have settled : resolution.run.2.store.Settled False id :=
      settled_of_run_resolved fresh acyclic resolved listed meets
    cases settled with
    | missing _ allowed => cases allowed
    | marked found | holder found =>
      rw [Store.Present, found]
      rfl

/-- A module with a cover that names a later cover, and a variable that is its own value. -/
def forwardCover : Resolution :=
  ofModules
    ⟨#[⟨.typeRef { name := ⟨3⟩ }, ⟨10, 13⟩⟩,
      ⟨.cover { header := { name := ⟨1⟩ }, fromType := some ⟨0⟩ }, ⟨0, 13⟩⟩,
      ⟨.typeRef { name := ⟨2⟩ }, ⟨24, 27⟩⟩,
      ⟨.cover { header := { name := ⟨3⟩ }, fromType := some ⟨2⟩ }, ⟨14, 27⟩⟩,
      ⟨.nameRef { path := [⟨4⟩] }, ⟨32, 33⟩⟩,
      ⟨.variable { header := { name := ⟨4⟩ }, value := some ⟨4⟩ }, ⟨28, 33⟩⟩,
      ⟨.module
        { name := ⟨5⟩
          declarations := [⟨1⟩, ⟨3⟩, ⟨5⟩]
          symbols := [(⟨1⟩, ⟨1⟩), (⟨3⟩, ⟨3⟩), (⟨4⟩, ⟨5⟩)] }, ⟨0, 33⟩⟩]⟩
    (.ofTexts ["Age", "Int", "Count", "self", "main"]) [⟨6⟩]

theorem run_resolved_complete_forwardCover :
    forwardCover.run.1.status = .resolved ∧
      .enter .typeRef ⟨0⟩ ∈ forwardCover.run.2.store.events ⟨6⟩ ∧
      ∃ reference, forwardCover.run.2.store.typeRef? ⟨0⟩ = some reference ∧
        reference.target.isSome = true ∧ reference.failed = false := by
  have fresh : forwardCover.store.Fresh := by decide
  have acyclic : forwardCover.store.Acyclic := Store.acyclic_of_earlier (by decide)
  have resolved : forwardCover.run.1.status = .resolved := by decide
  have entered : .enter .typeRef ⟨0⟩ ∈ forwardCover.run.2.store.events ⟨6⟩ := by decide
  have complete := run_resolved_complete fresh acyclic resolved
    (show (⟨6⟩ : NodeId) ∈ forwardCover.modules by decide)
  exact ⟨resolved, entered, complete.1 ⟨0⟩ entered⟩

end Resolution

end Declarations
