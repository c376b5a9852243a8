import Declarations.Proofs.Walk

/-!
# Settled nodes

A node is settled when a walk has nothing left to do at it: it bears its mark, or it bears none and
all it holds is settled. A walk that reports that it is done leaves its node settled, and a walk of
a settled node changes nothing. What the steps of a walk keep, a walk keeps (`Walks.invariant`); the
steps may use that the nodes of earlier stages are settled.
-/

namespace Declarations

/-- A walk has nothing left to do at a node. Whether a missing node counts is left open by
`lost`. -/
inductive Store.Settled (store : Store) (lost : Prop) : NodeId → Prop
  | missing {id : NodeId} (found : store.content? id = none) (allowed : lost) :
      Settled store lost id
  | marked {id : NodeId} {content : Content} (found : store.content? id = some content)
      (isMarked : content.isMarked = true) : Settled store lost id
  | holder {id : NodeId} {content : Content} (found : store.content? id = some content)
      (unmarkable : content.isMarkable = false)
      (children : ∀ child ∈ content.children, Settled store lost child) : Settled store lost id

namespace Store.Settled

variable {first second : Store} {lost lostLater : Prop} {id : NodeId} {content : Content}

/-- A settled node stays settled. -/
theorem mono (settled : first.Settled lost id) (advances : first.Advances second)
    (keeps : lost → lostLater) : second.Settled lostLater id := by
  induction settled with
  | missing found allowed => exact .missing (advances.content?_eq_none.mpr found) (keeps allowed)
  | marked found isMarked =>
    obtain ⟨later, foundLater, step⟩ := advances.forward found
    exact .marked foundLater (step.isMarked_mono isMarked)
  | holder found unmarkable _ ih =>
    obtain ⟨later, foundLater, step⟩ := advances.forward found
    refine .holder foundLater (step.isMarkable_eq.trans unmarkable) ?_
    intro child held
    rw [step.children_eq] at held
    exact ih child held

/-- A node that can be marked is settled by its mark only. -/
theorem isMarked (settled : first.Settled lost id) (found : first.content? id = some content)
    (markable : content.isMarkable = true) : content.isMarked = true := by
  cases settled with
  | missing foundNone allowed =>
    rw [found] at foundNone
    cases foundNone
  | marked foundOther isMarked =>
    rw [found] at foundOther
    cases foundOther
    exact isMarked
  | holder foundOther unmarkable children =>
    rw [found] at foundOther
    cases foundOther
    rw [markable] at unmarkable
    cases unmarkable

/-- A node that bears no mark is settled by what it holds. -/
theorem children (settled : first.Settled lost id) (found : first.content? id = some content)
    (unmarked : content.isMarked = false) :
    content.isMarkable = false ∧ ∀ child ∈ content.children, first.Settled lost child := by
  cases settled with
  | missing foundNone allowed =>
    rw [found] at foundNone
    cases foundNone
  | marked foundOther isMarked =>
    rw [found] at foundOther
    cases foundOther
    rw [unmarked] at isMarked
    cases isMarked
  | holder foundOther unmarkable children =>
    rw [found] at foundOther
    cases foundOther
    exact ⟨unmarkable, children⟩

end Store.Settled

namespace Content

/-- The nodes of a stage are among the children, and so are those of the stages before it. -/
theorem mem_children_of_stage {content : Content} {before after : List (List NodeId)}
    {stage : List NodeId} (split : content.stages = before ++ stage :: after) {child : NodeId}
    (member : child ∈ before.flatten ∨ child ∈ stage) : child ∈ content.children := by
  rw [children, split, List.flatten_append, List.flatten_cons]
  rcases member with early | own
  · exact List.mem_append_left _ early
  · exact List.mem_append_right _ (List.mem_append_left _ own)

theorem isMarkable_of_isReference {content : Content} (reference : content.isReference = true) :
    content.isMarkable = true := by
  rw [isMarkable, reference, Bool.or_true]

theorem isMarkable_of_isDeclaration {content : Content}
    (declares : content.kind.isDeclaration = true) : content.isMarkable = true := by
  rw [isMarkable, declares, Bool.true_or]

theorem not_isDeclaration_of_isReference {content : Content}
    (reference : content.isReference = true) : content.kind.isDeclaration = false := by
  cases content <;> first | rfl | cases reference

theorem not_isReference_of_isDeclaration {content : Content}
    (declares : content.kind.isDeclaration = true) : content.isReference = false := by
  cases content <;> first | rfl | cases declares

theorem children_of_isReference {content : Content} (reference : content.isReference = true) :
    content.children = [] := by
  cases content <;> first | rfl | cases reference

theorem not_isMarkable {content : Content} (notReference : content.isReference = false)
    (notDeclaration : content.kind.isDeclaration = false) : content.isMarkable = false := by
  rw [isMarkable, notReference, notDeclaration]
  rfl

theorem isDeclaration_of_isMarkable {content : Content} (notReference : content.isReference = false)
    (markable : content.isMarkable = true) : content.kind.isDeclaration = true := by
  rw [isMarkable, notReference, Bool.or_false] at markable
  exact markable

end Content

namespace Resolution

/-- Marking a node that bears its mark, or that bears none ever, changes nothing. -/
theorem finish_eq_self {resolution : Resolution} {id : NodeId} {content : Content}
    (found : resolution.store.content? id = some content)
    (nothing : content.isMarked = true ∨ content.isMarkable = false) :
    resolution.finish id = resolution := by
  have same : resolution.store.markResolved id = resolution.store := by
    apply Store.modify_eq_self
    intro other foundOther
    rw [found] at foundOther
    cases foundOther
    rcases nothing with isMarked | unmarkable
    · exact Content.mapHeader_markResolved_of_isMarked isMarked
    · exact Content.mapHeader_markResolved_of_not_isMarkable unmarkable
  rw [finish, same]

variable {levels : Nat} {path : Path} {id : NodeId} {start final : Resolution}
  {progress : Progress}

/-- The nodes of a list that is done are settled at its end, if each is at the end of its visit. -/
theorem VisitsAll.settled {visits : NodeId → Visit} {ids : List NodeId}
    (each : ∀ id start progress final, visits id start progress final →
      start.Advances final ∧
        (progress = .done → final.store.Settled (final.failed = true) id))
    (visited : VisitsAll visits ids start .done final) :
    ∀ child ∈ ids, final.store.Settled (final.failed = true) child := by
  intro child member
  have bounded := (visited.allDone rfl).between Advances .refl .trans
    fun id _ start progress final ⟨visit, _⟩ => (each id start progress final visit).1
  obtain ⟨before, own, after, ⟨visit, isDone⟩, -, toFinal⟩ := bounded.exists_visit member
  have settled := (each child before own after visit).2 isDone
  exact settled.mono toFinal.store toFinal.failed

/-- A walk that is done leaves its node settled. -/
theorem Walks.settled (walked : Walks levels path id start progress final)
    (isDone : progress = .done) : final.store.Settled (final.failed = true) id := by
  induction walked using Walks.induction with
  | missing found => exact .missing found rfl
  | marked found isMarked => exact .marked found isMarked
  | @bind levels path id start content bound found isReference isOpen judged =>
    have foundBound : (start.store.modify id fun _ => bound).content? id = some bound := by
      rw [Store.content?_modify_same, found, Option.map_some]
    exact .marked foundBound (judge_bind isReference isOpen judged).2.1
  | wait => cases isDone
  | @reject levels path id start content report found isReference isOpen judged =>
    have foundGivenUp : (start.store.modify id fun _ => content.givenUp).content? id =
        some content.givenUp := by
      rw [Store.content?_modify_same, found, Option.map_some]
    exact .marked foundGivenUp (Content.isMarked_givenUp isReference)
  | @finish levels path id start final content found notReference isOpen visits stages =>
    have children := stages.flatten.settled fun child start progress final ⟨walked, settled⟩ =>
      ⟨walked.advances, settled⟩
    have toFinal := visits.advances fun _ _ _ _ _ walked => walked.advances
    obtain ⟨later, foundLater, step⟩ := toFinal.store.forward found
    have foundMarked : (final.finish id).store.content? id =
        some (later.mapHeader Header.markResolved) := by
      change (final.store.modify id _).content? id = _
      rw [Store.content?_modify_same, foundLater, Option.map_some]
    cases declares : content.kind.isDeclaration with
    | true =>
      rw [← step.kind_eq] at declares
      exact .marked foundMarked (Content.isMarked_mapHeader_markResolved declares)
    | false =>
      have unmarkable := Content.not_isMarkable notReference declares
      have laterUnmarkable := step.isMarkable_eq.trans unmarkable
      rw [finish_eq_self foundLater (Or.inr laterUnmarkable)]
      refine .holder foundLater laterUnmarkable ?_
      intro child held
      rw [step.children_eq] at held
      exact children child held
  | stop => cases isDone

/-- A list of nodes at each of which nothing is to do is done, and nothing changes. -/
theorem VisitsAll.unchanged {visits : NodeId → Visit} {ids : List NodeId}
    (each : ∀ id ∈ ids, ∀ progress final, visits id start progress final →
      progress = .done ∧ final = start)
    (visited : VisitsAll visits ids start progress final) : progress = .done ∧ final = start := by
  induction visited with
  | nil => exact ⟨rfl, rfl⟩
  | cons head _ ih =>
    obtain ⟨headDone, same⟩ := each _ List.mem_cons_self _ _ head
    subst headDone same
    exact ih fun id member => each id (List.mem_cons_of_mem _ member)

/-- The walk of a settled node is done at once and changes nothing, unless it meets a missing
node. -/
theorem Walks.unchanged (walked : Walks levels path id start progress final)
    (settled : start.store.Settled False id) : progress = .done ∧ final = start := by
  induction walked using Walks.induction with
  | missing found =>
    cases settled with
    | missing _ allowed => cases allowed
    | marked foundOther _ | holder foundOther _ _ =>
      rw [found] at foundOther
      cases foundOther
  | marked => exact ⟨rfl, rfl⟩
  | bind found isReference isOpen judged | wait found isReference isOpen judged
  | reject found isReference isOpen judged =>
    have marked := settled.isMarked found (Content.isMarkable_of_isReference isReference)
    rw [isOpen] at marked
    cases marked
  | @finish levels path id start final content found notReference isOpen _ stages =>
    obtain ⟨unmarkable, children⟩ := settled.children found isOpen
    obtain ⟨-, same⟩ := stages.flatten.unchanged
      fun child held progress final ⟨_, unchanged⟩ => unchanged (children child held)
    subst same
    exact ⟨rfl, finish_eq_self found (Or.inr unmarkable)⟩
  | @stop levels path id start final content found notReference isOpen _ stages =>
    -- the stage that stays open would be done as well
    obtain ⟨unmarkable, children⟩ := settled.children found isOpen
    obtain ⟨before, stage, after, middle, split, allDone, pending⟩ := stages.exists_pending
    obtain ⟨-, same⟩ := allDone.unchanged fun child held progress final ⟨_, unchanged⟩ =>
      unchanged (children child (Content.mem_children_of_stage split (Or.inl held)))
    subst same
    obtain ⟨isDone, -⟩ := pending.unchanged fun child held progress final ⟨_, unchanged⟩ =>
      unchanged (children child (Content.mem_children_of_stage split (Or.inr held)))
    cases isDone

/-! ## What the steps keep, a walk keeps -/

/-- An invariant goes through the stages of a node if the walks of its children keep it where they
stand. The stages passed so far are settled when the next one is entered. -/
theorem VisitsStages.invariant {Inv : Resolution → Prop} {content : Content}
    {At : NodeId → Prop} {passed rest : List (List NodeId)}
    (enters : ∀ {current before stage after child}, start.Advances current → Inv current →
      content.stages = before ++ stage :: after →
      (∀ earlier ∈ before.flatten, current.store.Settled (current.failed = true) earlier) →
      child ∈ stage → At child)
    (visited : VisitsStages (fun child before progress after =>
      ∃ _ : Walks levels path child before progress after, At child → Inv before → Inv after)
      rest start progress final)
    (split : content.stages = passed ++ rest)
    (settled : ∀ earlier ∈ passed.flatten, start.store.Settled (start.failed = true) earlier)
    (holds : Inv start) : Inv final := by
  induction visited generalizing passed with
  | nil => exact holds
  | @done stage rest start middle final progress head tail ih =>
    have toMiddle := head.advances fun _ _ _ _ _ visit => visit.1.advances
    have holdsMiddle := head.invariant Inv
      (fun child member before progress after visit =>
        visit.2 (enters (.refl start) holds split settled member)) holds
    refine @ih (passed ++ [stage]) ?_ ?_ ?_ ?_
    · intro current before stage after child since
      exact enters (toMiddle.trans since)
    · rw [split, List.append_assoc]
      rfl
    · intro earlier member
      rw [List.flatten_append, List.mem_append] at member
      rcases member with early | own
      · exact (settled earlier early).mono toMiddle.store toMiddle.failed
      · rw [List.flatten_singleton] at own
        exact head.settled (fun _ _ _ _ visit => ⟨visit.1.advances, visit.1.settled⟩) earlier own
    · exact holdsMiddle
  | @pending stage rest start final head =>
    exact head.invariant Inv
      (fun child member before progress after visit =>
        visit.2 (enters (.refl start) holds split settled member)) holds

/-- What every step of a walk keeps at the places where the walk comes by, the walk keeps. A place
below a node may be entered when the stages before it are settled; a declaration is marked when all
it holds is settled. -/
theorem Walks.invariant (Inv : Resolution → Prop) (At : Path → NodeId → Prop)
    (below : ∀ {path id current content before stage after child}, At path id → Inv current →
      current.store.content? id = some content → content.stages = before ++ stage :: after →
      (∀ earlier ∈ before.flatten, current.store.Settled (current.failed = true) earlier) →
      child ∈ stage → At (path.push id) child)
    (missing : ∀ {path id current}, At path id → Inv current →
      current.store.content? id = none → Inv (current.reportFatal (unknownNode id)))
    (bind : ∀ {path id current content bound}, At path id → Inv current →
      current.store.content? id = some content → content.isReference = true →
      content.isMarked = false → current.judge (path.push id) id content = .bind bound →
      Inv (current.modify id fun _ => bound))
    (wait : ∀ {path id current content reason}, At path id → Inv current →
      current.store.content? id = some content → content.isReference = true →
      content.isMarked = false → current.judge (path.push id) id content = .wait reason →
      Inv (current.defer id reason))
    (reject : ∀ {path id current content report}, At path id → Inv current →
      current.store.content? id = some content → content.isReference = true →
      content.isMarked = false → current.judge (path.push id) id content = .reject report →
      Inv ((current.reportFatal report).modify id fun _ => content.givenUp))
    (finish : ∀ {path id current content}, At path id → Inv current →
      current.store.content? id = some content → content.kind.isDeclaration = true →
      content.isMarked = false →
      (∀ child ∈ content.children, current.store.Settled (current.failed = true) child) →
      Inv (current.finish id))
    (walked : Walks levels path id start progress final) (place : At path id)
    (holds : Inv start) : Inv final := by
  have through : ∀ {levels path id start progress final content}, At path id →
      start.store.content? id = some content →
      VisitsStages (fun child before progress after =>
        ∃ _ : Walks levels (path.push id) child before progress after,
          At (path.push id) child → Inv before → Inv after)
        content.stages start progress final → Inv start → Inv final := by
    intro levels path id start progress final content place found stages holds
    refine stages.invariant ?_ (List.nil_append content.stages).symm (List.forall_mem_nil _) holds
    intro current before stage after child since holdsCurrent split settled member
    obtain ⟨later, foundLater, step⟩ := since.store.forward found
    exact below place holdsCurrent foundLater (step.stages_eq.trans split) settled member
  induction walked using Walks.induction with
  | missing found => exact missing place holds found
  | marked => exact holds
  | bind found isReference isOpen judged => exact bind place holds found isReference isOpen judged
  | wait found isReference isOpen judged => exact wait place holds found isReference isOpen judged
  | reject found isReference isOpen judged =>
    exact reject place holds found isReference isOpen judged
  | @finish levels path id start final content found notReference isOpen visits stages =>
    have holdsFinal := through place found stages holds
    have toFinal := visits.advances fun _ _ _ _ _ walked => walked.advances
    obtain ⟨later, foundLater, step⟩ := toFinal.store.forward found
    -- the mark may have been put by a visit below, or the node bears none
    cases laterMarked : later.isMarked with
    | true =>
      rw [finish_eq_self foundLater (Or.inl laterMarked)]
      exact holdsFinal
    | false =>
      cases declares : later.kind.isDeclaration with
      | false =>
        have notReferenceLater := step.isReference_eq.trans notReference
        rw [finish_eq_self foundLater
          (Or.inr (Content.not_isMarkable notReferenceLater declares))]
        exact holdsFinal
      | true =>
        refine finish place holdsFinal foundLater declares laterMarked ?_
        intro child held
        rw [step.children_eq] at held
        exact visits.flatten.settled
          (fun _ _ _ _ walked => ⟨walked.advances, walked.settled⟩) child held
  | stop found _ _ _ stages => exact through place found stages holds

end Resolution

end Declarations
