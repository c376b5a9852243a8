import Declarations.Proofs.Deferral
import Declarations.Proofs.Justified

/-!
# A pass that resolves no further type

Within a pass only types that become resolved can change how a reference is judged. If a pass marks
none, every walk of it can be replayed from the state in which the pass ended: what it marked is
passed over, what it left open is left open for the same reason. So the next pass repeats the answer
and the deferrals, and changes nothing.
-/

namespace Declarations.Resolution

/-- Where no node is missing, a settled node is settled whether or not missing nodes count. -/
theorem WellPlaced.settled {resolution : Resolution} (placed : resolution.WellPlaced)
    {path : Path} {id : NodeId} {lost : Prop} (position : resolution.Position path id)
    (settled : resolution.store.Settled lost id) : resolution.store.Settled False id := by
  induction settled generalizing path with
  | missing found =>
    have present := placed.present position
    rw [Store.Present, found] at present
    cases present
  | marked found isMarked => exact .marked found isMarked
  | holder found unmarkable _ ih =>
    refine .holder found unmarkable ?_
    intro child held
    exact ih child held (.child position (Store.holds_iff.mpr ⟨_, found, held⟩))

/-- In a tree a reference is judged alike wherever a walk meets it. -/
theorem WellPlaced.judge_eq {base current : Resolution} (placed : base.WellPlaced)
    (advances : base.Advances current) {path other : Path} {id : NodeId}
    (position : base.Position path id) (otherPosition : base.Position other id)
    (content : Content) :
    current.judge (path.push id) id content = current.judge (other.push id) id content :=
  judge_congr_path ((advances.wellPlaced placed).scope (advances.position_iff.mpr position)
    (advances.position_iff.mpr otherPosition)) id content

theorem route_position (base : Resolution) : Route base.Position base.Reachable base where
  root listed := .root listed
  below {current path id content before stage after child} justified place found split _
      member := by
    have held := Content.mem_children_of_stage split (Or.inr member)
    exact .child place
      (justified.advances.store.holds_iff.mp (Store.holds_iff.mpr ⟨content, found, held⟩))
  keeps {current path id content} _ place _ _ _ := ⟨path, place⟩

/-- A stretch of a resolution that marks no type. -/
structure Quiet (base final : Resolution) : Prop where
  placed : base.WellPlaced
  justified : Justified base.Position base.Reachable base final
  types : ∀ id, (base.store.kind? id).any Kind.isTypeDecl = true →
    final.store.isResolved id = true → base.store.isResolved id = true

/-- The end of a pass with the backlog of an earlier state. -/
def replay (final current : Resolution) : Resolution :=
  { final with backlog := current.backlog }

theorem replay_defer {final current : Resolution} (since : current.Advances final) (id : NodeId)
    (reason : String) :
    final.replay (current.defer id reason) = (final.replay current).defer id reason := by
  have span : final.store.span id = current.store.span id := since.store.span id
  rw [replay, defer, defer, replay]
  dsimp only
  rw [span]

namespace Quiet

variable {base final current : Resolution} {path : Path} {id : NodeId} {content : Content}

/-- Judgements do not change in a quiet stretch. -/
theorem judge_eq (quiet : Quiet base final) (since : base.Advances current)
    (rest : current.Advances final) (path : Path) (id : NodeId) (content : Content) :
    final.judge path id content = current.judge path id content := by
  apply rest.parallel.judge_eq rest.store.span
  intro decl isType
  cases resolved : final.store.isResolved decl with
  | true =>
    rw [since.store.kind?_eq] at isType
    exact (since.store.isResolved_mono (quiet.types decl isType resolved)).symm
  | false =>
    cases earlier : current.store.isResolved decl with
    | false => rfl
    | true =>
      rw [rest.store.isResolved_mono earlier] at resolved
      cases resolved

/-- A reference that has to wait is still open at the end. -/
theorem open_of_wait (quiet : Quiet base final) (place : base.Position path id)
    (since : base.Advances current) (rest : current.Advances final)
    (found : current.store.content? id = some content) (isReference : content.isReference = true)
    (isOpen : content.isMarked = false) {reason : String}
    (judged : current.judge (path.push id) id content = .wait reason) :
    final.store.content? id = some content := by
  obtain ⟨later, foundLater, step⟩ := rest.store.forward found
  cases marked : later.isMarked with
  | false =>
    rw [step.eq_of_not_isMarked marked] at foundLater
    exact foundLater
  | true =>
    obtain ⟨other, otherPlace, answers⟩ := quiet.justified.reference
      (since.store.found_of_not_isMarked found isOpen) foundLater isReference isOpen marked
    rw [quiet.placed.judge_eq quiet.justified.advances otherPlace place,
      quiet.judge_eq since rest, judged] at answers
    exact absurd rfl (answers.ne_wait reason)

/-- A node is still open at the end if a child of it is, where it was left. -/
theorem open_of_stop (quiet : Quiet base final) (place : base.Position path id)
    (since : base.Advances current) (rest : current.Advances final)
    (found : current.store.content? id = some content) (notReference : content.isReference = false)
    (isOpen : content.isMarked = false) {child : NodeId} (held : child ∈ content.children)
    (unsettled : ¬ final.store.Settled False child) : final.store.content? id = some content := by
  obtain ⟨later, foundLater, step⟩ := rest.store.forward found
  cases marked : later.isMarked with
  | false =>
    rw [step.eq_of_not_isMarked marked] at foundLater
    exact foundLater
  | true =>
    have foundBase := since.store.found_of_not_isMarked found isOpen
    have declares : later.kind.isDeclaration = true := by
      apply Content.isDeclaration_of_isMarkable (step.isReference_eq.trans notReference)
      exact Content.isMarkable_of_isMarked marked
    have resolved : final.store.isResolved id = true :=
      Store.isResolved_iff.mpr ⟨later, foundLater, Content.isResolved_of_isMarked declares marked⟩
    have settled := (quiet.justified.declaration foundBase isOpen resolved).2 child held
    have below : base.Position (path.push id) child :=
      .child place (Store.holds_iff.mpr ⟨content, foundBase, held⟩)
    have placedFinal := quiet.justified.advances.wellPlaced quiet.placed
    exact absurd (placedFinal.settled (quiet.justified.advances.position_iff.mpr below) settled)
      unsettled

/-- The walks of the nodes below a node can be replayed where each of them can. -/
theorem replay_stages {levels : Nat} {start after : Resolution} {progress : Progress}
    (place : base.Position path id) (since : base.Advances start) (rest : after.Advances final)
    (found : start.store.content? id = some content)
    (stages : VisitsStages (fun child before own next =>
      ∃ _ : Walks levels (path.push id) child before own next,
        base.Position (path.push id) child → base.Advances before → next.Advances final →
          Walks levels (path.push id) child (final.replay before) own (final.replay next))
      content.stages start progress after) :
    VisitsStages (fun child before own next =>
      Walks levels (path.push id) child (final.replay before) own (final.replay next))
      content.stages start progress after := by
  have bounded := stages.between Advances .refl .trans fun _ _ _ _ _ visit => visit.1.advances
  refine bounded.imp ?_
  intro child held before own next ⟨⟨_, replays⟩, toBefore, toAfter⟩
  have below : base.Position (path.push id) child :=
    .child place (since.store.holds_iff.mp (Store.holds_iff.mpr ⟨content, found, held⟩))
  exact replays below (since.trans toBefore) (toAfter.trans rest)

/-- A walk of a quiet pass can be replayed at its end. -/
theorem replay_walk {levels : Nat} {start after : Resolution} {progress : Progress}
    (quiet : Quiet base final) (walked : Walks levels path id start progress after)
    (place : base.Position path id) (since : base.Advances start) (rest : after.Advances final) :
    Walks levels path id (final.replay start) progress (final.replay after) := by
  induction walked using Walks.induction with
  | @missing levels path id start found =>
    have present := since.store.present_iff.mpr (quiet.placed.present place)
    rw [Store.Present, found] at present
    cases present
  | @marked levels path id start content found isMarked =>
    have foundFinal : (final.replay start).store.content? id = some content :=
      rest.store.found_of_isMarked found isMarked
    exact .marked foundFinal isMarked
  | @bind levels path id start content bound found isReference isOpen judged =>
    have bears : bound.isMarked = true := (judge_bind isReference isOpen judged).2.1
    have foundBound : (start.modify id fun _ => bound).store.content? id = some bound := by
      change (start.store.modify id fun _ => bound).content? id = some bound
      rw [Store.content?_modify_same, found, Option.map_some]
    have foundFinal : (final.replay start).store.content? id = some bound :=
      rest.store.found_of_isMarked foundBound bears
    exact .marked foundFinal bears
  | @wait levels path id start content reason found isReference isOpen judged =>
    have restStart : start.Advances final := (advances_defer start id reason).trans rest
    have foundFinal : (final.replay start).store.content? id = some content :=
      quiet.open_of_wait place since restStart found isReference isOpen judged
    have judgedFinal : (final.replay start).judge (path.push id) id content = .wait reason := by
      rw [← judged]
      exact quiet.judge_eq since restStart (path.push id) id content
    rw [replay_defer restStart]
    exact .wait foundFinal isReference isOpen judgedFinal
  | @reject levels path id start content report found isReference isOpen judged =>
    have bears : content.givenUp.isMarked = true := Content.isMarked_givenUp isReference
    have foundGivenUp : (start.store.modify id fun _ => content.givenUp).content? id =
        some content.givenUp := by
      rw [Store.content?_modify_same, found, Option.map_some]
    have foundFinal : (final.replay start).store.content? id = some content.givenUp :=
      rest.store.found_of_isMarked foundGivenUp bears
    exact .marked foundFinal bears
  | @finish levels path id start after content found notReference isOpen visits stages =>
    have walked : Walks (levels + 1) path id start .done (after.finish id) :=
      .finish found notReference isOpen visits
    obtain ⟨later, foundLater, step⟩ := walked.advances.store.forward found
    cases markable : content.isMarkable with
    | true =>
      -- the mark that the walk puts is found again, and nothing was deferred on the way
      have bears := (walked.settled rfl).isMarked foundLater (step.isMarkable_eq.trans markable)
      have foundFinal : (final.replay start).store.content? id = some later :=
        rest.store.found_of_isMarked foundLater bears
      have same : final.replay (after.finish id) = final.replay start := by
        rw [replay, replay, walked.backlog_eq rfl]
      rw [same]
      exact .marked foundFinal bears
    | false =>
      have restAfter := (advances_finish after id).trans rest
      have replayed := (replay_stages place since restAfter found stages).map final.replay
      obtain ⟨last, foundLast, toLast⟩ := (walked.advances.trans rest).store.forward found
      have unmarkable := toLast.isMarkable_eq.trans markable
      have foundFinal : (final.replay start).store.content? id = some content := by
        have unmarked : last.isMarked = false := Content.not_isMarked_of_not_isMarkable unmarkable
        rw [← toLast.eq_of_not_isMarked unmarked]
        exact foundLast
      have again : Walks (levels + 1) path id (final.replay start) .done
          ((final.replay after).finish id) :=
        .finish foundFinal notReference isOpen replayed
      have foundAfter : (final.replay after).store.content? id = some content := foundFinal
      rw [finish_eq_self foundAfter (Or.inr markable)] at again
      exact again
  | @stop levels path id start after content found notReference isOpen visits stages =>
    have replayed := replay_stages place since rest found stages
    have restStart := (Walks.stop found notReference isOpen visits).advances.trans rest
    obtain ⟨earlier, stage, others, middle, split, -, pending⟩ := replayed.exists_pending
    obtain ⟨child, inStage, before, next, walked⟩ := pending.exists_pending
    have unsettled : ¬ final.store.Settled False child := by
      intro settled
      cases (walked.unchanged settled).1
    have foundFinal : (final.replay start).store.content? id = some content :=
      quiet.open_of_stop place since restStart found notReference isOpen
        (Content.mem_children_of_stage split (Or.inr inStage)) unsettled
    exact .stop foundFinal notReference isOpen (replayed.map final.replay)

end Quiet

/-- A pass that marks no further type leaves a state which the next pass repeats. -/
theorem pass_repeats {resolution : Resolution} (placed : resolution.WellPlaced)
    (types : ∀ id, (resolution.store.kind? id).any Kind.isTypeDecl = true →
      resolution.pass.2.store.isResolved id = true → resolution.store.isResolved id = true) :
    resolution.pass.2.pass =
      (resolution.pass.1, { resolution.pass.2 with passes := resolution.pass.2.passes + 1 }) := by
  have quiet : Quiet resolution resolution.pass.2 :=
    ⟨placed, (Justified.refl resolution).pass (route_position resolution) placed.acyclic, types⟩
  have visits := (pass_visits placed.acyclic).between Advances .refl .trans
    fun _ _ _ _ _ walked => walked.advances
  have opened := advances_opening resolution
  generalize resolution.pass.1 = progress at visits ⊢
  generalize resolution.pass.2 = final at visits quiet ⊢
  -- the walks are replayed, then the next pass is counted
  have repeated := visits.imp fun id listed before own after ⟨walked, toBefore, toFinal⟩ =>
    (quiet.replay_walk walked (.root listed) (opened.trans toBefore) toFinal).recount
      final.budget (final.passes + 1)
  have sequence := repeated.map fun current =>
    (final.replay current).recount final.budget (final.passes + 1)
  have advances := quiet.justified.advances
  rw [← advances.modules, ← advances.store.size_eq] at sequence
  exact pass_eq_of_visitsAll sequence

end Declarations.Resolution
