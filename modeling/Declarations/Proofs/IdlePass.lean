import Declarations.Proofs.Convergence
import Declarations.Proofs.Rules

/-!
# What an idle pass shows

A pass that repeats the state it begins with changes nothing on its way. Whatever it comes by is
therefore as the state has it: a reference that is open has to wait, and is deferred. With this the
resolved declarations of such a state are closed under the rules: the pass comes by everything that
the rules reach, and would mark a declaration all of whose children settle.
-/

namespace Declarations.Resolution

variable {base final : Resolution} {path : Path} {id : NodeId} {content : Content}
  {progress : Progress} {resolved : Set NodeId}

/-- The pass that repeats a state comes by a node, with this progress. -/
def Revisits (final : Resolution) (path : Path) (id : NodeId) (progress : Progress) : Prop :=
  ∃ levels start after, Walks levels path id start progress after ∧
    final.opening.Continues start ∧ after.Continues { final with passes := final.passes + 1 }

namespace Revisits

/-- Nothing changes in the course of a pass that ends as it began. -/
theorem store_eq {current : Resolution} (since : final.opening.Continues current)
    (rest : current.Continues { final with passes := final.passes + 1 }) :
    current.store = final.store :=
  since.advances.store.antisymm rest.advances.store

theorem settled (revisits : final.Revisits path id .done) :
    final.store.Settled (final.failed = true) id := by
  obtain ⟨levels, start, after, walked, -, rest⟩ := revisits
  exact (walked.settled rfl).mono rest.advances.store rest.advances.failed

theorem done_of_settled (revisits : final.Revisits path id progress)
    (settled : final.store.Settled False id) : progress = .done := by
  obtain ⟨levels, start, after, walked, since, rest⟩ := revisits
  have same := store_eq since (walked.continues.trans rest)
  exact (walked.unchanged (same ▸ settled)).1

theorem root (idle : final.Idle progress) (acyclic : final.store.Acyclic)
    (listed : id ∈ final.modules) : ∃ own, final.Revisits .empty id own := by
  have visits := pass_visits acyclic
  rw [idle] at visits
  have bounded := visits.between Continues Continues.refl Continues.trans
    fun _ _ _ _ _ walked => walked.continues
  obtain ⟨start, own, after, walked, since, rest⟩ := bounded.exists_visit listed
  exact ⟨own, _, start, after, walked, since, rest⟩

/-- An open reference that the pass comes by has to wait, and is deferred. -/
theorem reference (revisits : final.Revisits path id progress)
    (found : final.store.content? id = some content) (isReference : content.isReference = true)
    (isOpen : content.isMarked = false) :
    progress = .pending ∧ id ∈ final.deferred ∧
      ∃ reason, final.judge (path.push id) id content = .wait reason := by
  cases progress with
  | done =>
    have marked := revisits.settled.isMarked found (Content.isMarkable_of_isReference isReference)
    rw [isOpen] at marked
    cases marked
  | pending =>
    obtain ⟨levels, start, after, walked, since, rest⟩ := revisits
    have same := store_eq since (walked.continues.trans rest)
    have advances := (advances_opening final).trans since.advances
    cases levels with
    | zero => cases walked
    | succ levels =>
      have foundStart : start.store.content? id = some content := same ▸ found
      rw [Walks, Walks.reference foundStart isReference isOpen] at walked
      cases judged : start.judge (path.push id) id content with
      | bind bound =>
        rw [judged] at walked
        cases walked
      | reject report =>
        rw [judged] at walked
        cases walked
      | wait reason =>
        rw [judged] at walked
        cases walked
        have member := mem_deferred_defer start id reason
        refine ⟨rfl, rest.deferred.subset member, reason, ?_⟩
        rw [← judged]
        exact (advances.judge_eq_of_store_eq same _ _ _).symm

/-- The pass comes by what a node that it enters holds, stage by stage. -/
theorem entered (revisits : final.Revisits path id progress)
    (found : final.store.content? id = some content) (notReference : content.isReference = false)
    (isOpen : content.isMarked = false) :
    ∃ start after, VisitsStages (fun child _ own _ => final.Revisits (path.push id) child own)
      content.stages start progress after := by
  obtain ⟨levels, start, after, walked, since, rest⟩ := revisits
  have same := store_eq since (walked.continues.trans rest)
  have foundStart : start.store.content? id = some content := same ▸ found
  obtain ⟨lower, reached, stages, ended⟩ := walked.exists_stages foundStart notReference isOpen
  have toAfter : reached.Continues after := by
    rcases ended with rfl | rfl
    · exact .refl _
    · exact ⟨advances_finish reached id, List.prefix_rfl⟩
  have bounded := stages.between Continues Continues.refl Continues.trans
    fun _ _ _ _ _ walked => walked.continues
  refine ⟨start, reached, bounded.imp ?_⟩
  intro child _ before own next ⟨walkedChild, toBefore, toReached⟩
  exact ⟨lower, before, next, walkedChild, since.trans toBefore,
    (toReached.trans toAfter).trans rest⟩

/-- What settles by the rules is done when the pass comes by it. -/
theorem done_of_settles (advances : base.Advances final)
    (marks : ∀ decl ∈ resolved, final.store.isResolved decl = true)
    (settles : base.Settles resolved path id) (revisits : final.Revisits path id progress) :
    progress = .done := by
  induction settles generalizing progress with
  | @literal path id value found =>
    obtain ⟨later, foundLater, step⟩ := advances.store.forward found
    have unmarkable : later.isMarkable = false := step.isMarkable_eq.trans rfl
    refine revisits.done_of_settled (.holder foundLater unmarkable ?_)
    intro child held
    rw [step.children_eq] at held
    cases held
  | @declaration path id content found declares member =>
    obtain ⟨later, foundLater, isResolved⟩ := Store.isResolved_iff.mp (marks id member)
    exact revisits.done_of_settled
      (.marked foundLater (Content.isMarked_of_isResolved isResolved))
  | @module path id data found declarations ih =>
    obtain ⟨later, foundLater, step⟩ := advances.store.forward found
    have unmarked : later.isMarked = false :=
      Content.not_isMarked_of_not_isMarkable (step.isMarkable_eq.trans rfl)
    have same := step.eq_of_not_isMarked unmarked
    subst same
    obtain ⟨start, after, stages⟩ := revisits.entered foundLater rfl rfl
    cases progress with
    | done => rfl
    | pending =>
      obtain ⟨before, stage, others, middle, split, -, pending⟩ := stages.exists_pending
      obtain ⟨child, inStage, -, -, revisitsChild⟩ := pending.exists_pending
      have held := Content.mem_children_of_stage split (Or.inr inStage)
      rw [Content.children, Content.stages, List.flatten_singleton] at held
      exact ih child held revisitsChild
  | @reference path id content found isReference ready =>
    obtain ⟨later, foundLater, step⟩ := advances.store.forward found
    cases isMarked : later.isMarked with
    | true => exact revisits.done_of_settled (.marked foundLater isMarked)
    | false =>
      rw [step.eq_of_not_isMarked isMarked] at foundLater isMarked
      obtain ⟨-, -, reason, judged⟩ := revisits.reference foundLater isReference isMarked
      have readyFinal := (advances.parallel.ready_iff.mpr ready).mono fun decl member _ =>
        show decl ∈ {decl | final.store.isResolved decl = true} from marks decl member
      have decided := (judge_ne_wait_iff final (path.push id) id content).mpr readyFinal
      exact absurd judged (decided reason)

end Revisits

section Complete

variable {At : Path → NodeId → Prop} {Kept : NodeId → Prop} (fresh : base.store.Fresh)
  (placed : base.WellPlaced) (justified : Justified At Kept base final)
  (idle : final.Idle progress)

include fresh placed justified idle

/-- The pass comes by what the rules reach, unless it lies below a node that is settled. -/
theorem revisits_or_settled (marks : ∀ decl ∈ resolved, final.store.isResolved decl = true)
    (reached : base.Reached resolved path id) :
    (∃ own, final.Revisits path id own) ∨ final.store.Settled (final.failed = true) id := by
  have advances := justified.advances
  induction reached with
  | root listed =>
    rw [← advances.modules] at listed
    exact Or.inl (Revisits.root idle (advances.store.acyclic placed.acyclic) listed)
  | @child path parent child content before after stage _ found split earlier member ih =>
    obtain ⟨later, foundLater, step⟩ := advances.store.forward found
    have held : child ∈ later.children := by
      rw [step.children_eq]
      exact Content.mem_children_of_stage split (Or.inr member)
    rcases ih with ⟨own, revisits⟩ | settled
    · cases isMarked : later.isMarked with
      | true =>
        exact Or.inr (justified.settled_below fresh (.marked foundLater isMarked) foundLater held)
      | false =>
        rw [step.eq_of_not_isMarked isMarked] at foundLater isMarked
        cases isReference : content.isReference with
        | true =>
          rw [step.children_eq, Content.children_of_isReference isReference] at held
          cases held
        | false =>
          obtain ⟨start, reached, stages⟩ := revisits.entered foundLater isReference isMarked
          rw [split] at stages
          obtain ⟨-, own, -, revisitsChild⟩ := stages.exists_visit
            (fun other early _ _ _ revisitsOther =>
              revisitsOther.done_of_settles advances marks (earlier other early)) member
          exact Or.inl ⟨own, revisitsChild⟩
    · exact Or.inr (justified.settled_below fresh settled foundLater held)

/-- The declarations that are resolved when a pass has nothing left to do obey the rules. -/
theorem closed_of_idle :
    base.Closed {id | base.Reachable id ∧ final.store.isResolved id = true} := by
  intro path id content reached found declares settles
  have marks : ∀ decl ∈ {id | base.Reachable id ∧ final.store.isResolved id = true},
      final.store.isResolved decl = true := fun _ member => member.2
  have advances := justified.advances
  refine ⟨⟨path, reached.position⟩, ?_⟩
  obtain ⟨later, foundLater, step⟩ := advances.store.forward found
  have declaresLater : later.kind.isDeclaration = true := step.kind_eq ▸ declares
  have markable := Content.isMarkable_of_isDeclaration declaresLater
  have isMarked : later.isMarked = true := by
    rcases revisits_or_settled fresh placed justified idle marks reached with
      ⟨own, revisits⟩ | settled
    · cases own with
      | done => exact revisits.settled.isMarked foundLater markable
      | pending =>
        -- the pass would be left open by a child, but all children settle
        cases isMarked : later.isMarked with
        | true => rfl
        | false =>
          rw [step.eq_of_not_isMarked isMarked] at foundLater isMarked
          have notReference := Content.not_isReference_of_isDeclaration declares
          obtain ⟨start, after, stages⟩ := revisits.entered foundLater notReference isMarked
          obtain ⟨before, stage, others, middle, split, -, pending⟩ := stages.exists_pending
          obtain ⟨child, inStage, -, -, revisitsChild⟩ := pending.exists_pending
          have held := Content.mem_children_of_stage split (Or.inr inStage)
          cases revisitsChild.done_of_settles advances marks (settles child held)
    · exact settled.isMarked foundLater markable
  exact Store.isResolved_iff.mpr
    ⟨later, foundLater, Content.isResolved_of_isMarked declaresLater isMarked⟩

end Complete

/-! ## Where the passes of a run end -/

/-- The passes over fresh trees have come to an end: a further one repeats the state, and the
declarations that are marked are those of a set that obeys the rules. -/
structure Fixpoint (base final : Resolution) (progress : Progress) (resolved : Set NodeId) :
    Prop where
  fresh : base.store.Fresh
  placed : base.WellPlaced
  idle : final.Idle progress
  closed : base.Closed resolved
  justified : Justified (base.Reached resolved) (· ∈ resolved) base final
  marks : ∀ decl ∈ resolved, final.store.isResolved decl = true

theorem Fixpoint.isResolved_iff {base final : Resolution} {progress : Progress}
    {resolved : Set NodeId} (fixpoint : Fixpoint base final progress resolved) (decl : NodeId) :
    final.store.isResolved decl = true ↔ decl ∈ resolved :=
  ⟨fixpoint.justified.kept fixpoint.fresh, fixpoint.marks decl⟩

section Runs

variable (fresh : base.store.Fresh) (placed : base.WellPlaced)
  (enough : base.typeCount < base.budget.maxPasses)

include fresh placed enough

/-- The declarations that the passes of a run mark are the least set that obeys the rules. -/
theorem isLeast_passesOfRun :
    IsLeast {resolved | base.Closed resolved}
      {id | base.Reachable id ∧ base.passesOfRun.2.store.isResolved id = true} := by
  constructor
  · have justified := justified_passesOfRun (route_position base) placed.acyclic
    exact closed_of_idle fresh placed justified (passesOfRun_idle placed enough)
  · intro resolved closed id member
    have justified := justified_passesOfRun (route_reached fresh placed closed) placed.acyclic
    exact justified.kept fresh member.2

theorem fixpoint_passesOfRun :
    Fixpoint base base.passesOfRun.2 base.passesOfRun.1
      {id | base.Reachable id ∧ base.passesOfRun.2.store.isResolved id = true} := by
  have closed := (isLeast_passesOfRun fresh placed enough).1
  exact ⟨fresh, placed, passesOfRun_idle placed enough, closed,
    justified_passesOfRun (route_reached fresh placed closed) placed.acyclic,
    fun _ member => member.2⟩

end Runs

end Declarations.Resolution
