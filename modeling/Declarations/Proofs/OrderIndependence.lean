import Declarations.Proofs.Reorder
import Declarations.Proofs.Reports

/-!
# The order of declarations and modules does not matter

The order in which declarations and modules are listed decides when a reference is bound, how many
passes are made and in which order nodes are deferred. None of this shows in the end. Two runs over
the same trees in different orders mark the same declarations, the least set that obeys the rules.
What happens to a reference follows from its judgement with these declarations resolved, and so do
the reports.
-/

namespace Declarations

/-- The same end of a run, with the open nodes in any order. -/
inductive Status.Reordered : Status → Status → Prop
  | resolved : Reordered .resolved .resolved
  | failed : Reordered .failed .failed
  | unresolved {nodes others : List NodeId} (permuted : nodes.Perm others) :
      Reordered (.unresolved nodes) (.unresolved others)

namespace Resolution

namespace Reordered

variable {first second final other : Resolution} {progress otherProgress : Progress}
  {resolved : Set NodeId} {id : NodeId} {content later : Content} {report : Diagnostic}
  (reordered : first.Reordered second) (fixpoint : Fixpoint first final progress resolved)
  (twin : Fixpoint second other otherProgress resolved)

include reordered fixpoint twin

theorem judge_eq (path : Path) (id : NodeId) (content : Content) :
    other.judge path id content = final.judge path id content := by
  have since := fixpoint.justified.advances
  have sinceOther := twin.justified.advances
  have parallel : final.Parallel other :=
    since.parallel.symm.trans (reordered.parallel.trans sinceOther.parallel)
  apply parallel.judge_eq
  · intro id
    rw [sinceOther.store.span, reordered.store.span, since.store.span]
  · intro decl _
    rw [Bool.eq_iff_iff, twin.isResolved_iff, fixpoint.isResolved_iff]

/-- A reference that one run marks the other marks in the same way. -/
theorem found_of_reference (found : first.store.content? id = some content)
    (isReference : content.isReference = true)
    (foundFinal : final.store.content? id = some later) (isMarked : later.isMarked = true) :
    other.store.content? id = some later := by
  obtain ⟨path, reached, answers⟩ := fixpoint.justified.reference found foundFinal isReference
    (fixpoint.fresh found) isMarked
  have reachedSecond := reordered.reached reached
  have same := reordered.judge_eq fixpoint twin (path.push id) id content
  obtain ⟨given, foundSecond, sameGiven⟩ := reordered.store.forward found
  cases sameGiven.eq_of_isMarkable (Content.isMarkable_of_isReference isReference)
  obtain ⟨own, foundOther, step⟩ := twin.justified.advances.store.forward foundSecond
  cases ownMarked : own.isMarked with
  | false =>
    -- the other run came by, too, and the reference did not have to wait
    rw [step.eq_of_not_isMarked ownMarked] at foundOther ownMarked
    obtain ⟨-, reason, waits⟩ :=
      twin.waits_of_reached reachedSecond foundOther isReference ownMarked
    rw [same] at waits
    exact absurd waits (answers.ne_wait reason)
  | true =>
    obtain ⟨place, reachedOther, answersOther⟩ := twin.justified.reference foundSecond foundOther
      isReference (twin.fresh foundSecond) ownMarked
    rw [twin.placed.judge_eq twin.justified.advances reachedOther.position
      reachedSecond.position, same] at answersOther
    rw [answers.unique answersOther]
    exact foundOther

/-- So it is with every node, since a declaration has only one mark to get. -/
theorem found_of_isMarked (foundFinal : final.store.content? id = some later)
    (isMarked : later.isMarked = true) : other.store.content? id = some later := by
  obtain ⟨content, found, step⟩ := fixpoint.justified.advances.store.backward foundFinal
  cases isReference : content.isReference with
  | true => exact reordered.found_of_reference fixpoint twin found isReference foundFinal isMarked
  | false =>
    have markable := Content.isMarkable_of_isMarked isMarked
    have declares : later.kind.isDeclaration = true :=
      Content.isDeclaration_of_isMarkable (step.isReference_eq.trans isReference) markable
    have member : id ∈ resolved := (fixpoint.isResolved_iff id).mp (Store.isResolved_iff.mpr
      ⟨later, foundFinal, Content.isResolved_of_isMarked declares isMarked⟩)
    obtain ⟨own, foundOther, ownResolved⟩ := Store.isResolved_iff.mp (twin.marks id member)
    obtain ⟨given, foundSecond, stepOther⟩ := twin.justified.advances.store.backward foundOther
    obtain ⟨again, foundAgain, same⟩ := reordered.store.forward found
    rw [foundSecond] at foundAgain
    cases foundAgain
    rw [step.isMarkable_eq] at markable
    cases same.eq_of_isMarkable markable
    rw [foundOther, step.eq_mapHeader_of_isMarked isReference isMarked,
      stepOther.eq_mapHeader_of_isMarked isReference (Content.isMarked_of_isResolved ownResolved)]

/-- Both runs end with the same nodes. -/
theorem store_reordered : final.store.Reordered other.store where
  span id := by
    rw [twin.justified.advances.store.span, reordered.store.span,
      fixpoint.justified.advances.store.span]
  content id := by
    have since := fixpoint.justified.advances.store
    have sinceOther := twin.justified.advances.store
    rcases reordered.store.missing_or_found id with
      ⟨none, noneSecond⟩ | ⟨content, given, found, foundSecond, same⟩
    · rw [since.content?_eq_none.mpr none, sinceOther.content?_eq_none.mpr noneSecond]
      exact .none
    · obtain ⟨later, foundFinal, step⟩ := since.forward found
      obtain ⟨own, foundOther, stepOther⟩ := sinceOther.forward foundSecond
      -- what either run marks the other marks alike; what none marks stays as it was given
      cases isMarked : later.isMarked with
      | true =>
        rw [foundFinal, reordered.found_of_isMarked fixpoint twin foundFinal isMarked]
        exact .some (.same later)
      | false =>
        cases ownMarked : own.isMarked with
        | true =>
          rw [foundOther, reordered.symm.found_of_isMarked twin fixpoint foundOther ownMarked]
          exact .some (.same own)
        | false =>
          rw [foundFinal, foundOther, step.eq_of_not_isMarked isMarked,
            stepOther.eq_of_not_isMarked ownMarked]
          exact .some same

/-! ## Reports -/

theorem awaits {deferral : Deferral} (awaits : final.Awaits (first.Reached resolved) deferral) :
    other.Awaits (second.Reached resolved) deferral := by
  have stores := reordered.store_reordered fixpoint twin
  obtain ⟨path, content, reached, found, isReference, isOpen, judged, span⟩ := awaits
  obtain ⟨own, foundOther, same⟩ := stores.forward found
  cases same.eq_of_isMarkable (Content.isMarkable_of_isReference isReference)
  refine ⟨path, content, reordered.reached reached, foundOther, isReference, isOpen, ?_, ?_⟩
  · rw [reordered.judge_eq fixpoint twin, judged]
  · rw [stores.span, span]

theorem rejects (rejects : Rejects first final id report) : Rejects second other id report := by
  obtain ⟨path, content, position, found, isReference, judged⟩ := rejects
  obtain ⟨given, foundSecond, same⟩ := reordered.store.forward found
  cases same.eq_of_isMarkable (Content.isMarkable_of_isReference isReference)
  refine ⟨path, content, reordered.position position, foundSecond, isReference, ?_⟩
  rw [reordered.judge_eq fixpoint twin, judged]

theorem deferrals_perm : final.deferrals.Perm other.deferrals := by
  apply (List.perm_ext_iff_of_nodup final.deferrals_nodup other.deferrals_nodup).mpr
  intro deferral
  rw [fixpoint.mem_deferrals_iff, twin.mem_deferrals_iff]
  exact ⟨reordered.awaits fixpoint twin, reordered.symm.awaits twin fixpoint⟩

/-- Both runs give up the same references, with the same reports. -/
theorem given_perm {given others : List (NodeId × Diagnostic)}
    (reported : Reported first final given) (reportedOther : Reported second other others) :
    given.Perm others := by
  apply (List.perm_ext_iff_of_nodup reported.nodup.of_map reportedOther.nodup.of_map).mpr
  rintro ⟨id, report⟩
  rw [reported.mem_iff fixpoint.placed fixpoint.justified.advances,
    reportedOther.mem_iff twin.placed twin.justified.advances,
    (reordered.store_reordered fixpoint twin).isGivenUp_eq]
  exact and_congr_right fun _ =>
    ⟨reordered.rejects fixpoint twin, reordered.symm.rejects twin fixpoint⟩

theorem progress_eq : otherProgress = progress := by
  have deferrals := reordered.deferrals_perm fixpoint twin
  have ends : progress = .done ↔ otherProgress = .done := by
    rw [fixpoint.done_iff, twin.done_iff]
    exact ⟨fun empty => List.nil_perm.mp (empty ▸ deferrals),
      fun empty => List.perm_nil.mp (empty ▸ deferrals)⟩
  cases progress with
  | done => exact ends.mp rfl
  | pending =>
    cases otherProgress with
    | done => exact absurd (ends.mpr rfl) nofun
    | pending => rfl

variable {given others : List (NodeId × Diagnostic)} (reported : Reported first final given)
  (reportedOther : Reported second other others)

include reported reportedOther

theorem status_reordered :
    ((final.conclude progress).status progress).Reordered
      ((other.conclude otherProgress).status otherProgress) := by
  have givenUp := reordered.given_perm fixpoint twin reported reportedOther
  have failed : other.failed = final.failed := by
    rw [Bool.eq_iff_iff, reported.failed, reportedOther.failed]
    exact not_congr ⟨fun empty => List.perm_nil.mp (empty ▸ givenUp),
      fun empty => List.nil_perm.mp (empty ▸ givenUp)⟩
  rw [fixpoint.status_conclude, twin.status_conclude, reordered.progress_eq fixpoint twin]
  simp only [status, failed]
  cases final.failed with
  | true => exact .failed
  | false =>
    cases progress with
    | done => exact .resolved
    | pending => exact .unresolved ((reordered.deferrals_perm fixpoint twin).map Deferral.node)

theorem diagnostics_perm :
    (final.conclude progress).log.diagnostics.Perm
      (other.conclude otherProgress).log.diagnostics := by
  have givenUp := reordered.given_perm fixpoint twin reported reportedOther
  have deferrals := reordered.deferrals_perm fixpoint twin
  rw [fixpoint.diagnostics_conclude, twin.diagnostics_conclude, reported.diagnostics,
    reportedOther.diagnostics]
  exact (givenUp.map Prod.snd).append (deferrals.map _)

end Reordered

/-- Whatever the order, runs with enough passes mark one and the same set of declarations. -/
theorem exists_fixpoints {first second : Resolution} (reordered : first.Reordered second)
    (fresh : first.store.Fresh) (placed : first.WellPlaced)
    (enough : first.typeCount < first.budget.maxPasses)
    (enoughSecond : second.typeCount < second.budget.maxPasses) :
    ∃ resolved, Fixpoint first first.passesOfRun.2 first.passesOfRun.1 resolved ∧
      Fixpoint second second.passesOfRun.2 second.passesOfRun.1 resolved := by
  have freshSecond := reordered.store.fresh fresh
  have placedSecond := reordered.wellPlaced placed
  have least := isLeast_passesOfRun fresh placed enough
  have leastSecond := isLeast_passesOfRun freshSecond placedSecond enoughSecond
  have rules : {resolved | second.Closed resolved} = {resolved | first.Closed resolved} :=
    Set.ext fun _ => reordered.closed_iff
  rw [rules] at leastSecond
  -- the rules are the same, and there is only one least set that obeys them
  have fixpoint := fixpoint_passesOfRun fresh placed enough
  rw [least.unique leastSecond] at fixpoint
  exact ⟨_, fixpoint, fixpoint_passesOfRun freshSecond placedSecond enoughSecond⟩

/-- Two runs over the same fresh trees, with the declarations of every module and the modules
themselves listed in different orders, end with the same nodes, the same status and the same
reports, up to order, if the modules have different names and the budgets are above the number of
covers and enumerations. -/
theorem run_order_independent {store other : Store} {modules others : List NodeId}
    (names : NameTable) (budget otherBudget : Budget) (fresh : store.Fresh)
    (forest : store.Forest) (lists : (ofModules store names modules).ListsModules)
    (distinct : DistinctNames store modules) (reordered : store.Reordered other)
    (permuted : modules.Perm others)
    (enough : (ofModules store names modules).typeCount < budget.maxPasses)
    (enoughOther : (ofModules store names modules).typeCount < otherBudget.maxPasses) :
    ((ofModules store names modules).withBudget budget).run.2.store.Reordered
      ((ofModules other names others).withBudget otherBudget).run.2.store ∧
    ((ofModules store names modules).withBudget budget).run.1.status.Reordered
      ((ofModules other names others).withBudget otherBudget).run.1.status ∧
    ((ofModules store names modules).withBudget budget).run.2.log.diagnostics.Perm
      ((ofModules other names others).withBudget otherBudget).run.2.log.diagnostics := by
  have pair := reordered_ofModules reordered permuted distinct names budget otherBudget
  have placed : ((ofModules store names modules).withBudget budget).WellPlaced :=
    wellPlaced_of_forest forest lists
  have placedOther := pair.wellPlaced placed
  rw [← typeCount_withBudget _ budget] at enough enoughOther
  rw [← pair.typeCount_eq] at enoughOther
  obtain ⟨resolved, fixpoint, twin⟩ := exists_fixpoints pair fresh placed enough enoughOther
  obtain ⟨given, reported⟩ := exists_reported fresh placed rfl rfl rfl
  obtain ⟨givenOther, reportedOther⟩ :=
    exists_reported (reordered.fresh fresh) placedOther rfl rfl rfl
  rw [run_eq (Prod.mk.eta).symm, run_eq (Prod.mk.eta).symm]
  refine ⟨?_, pair.status_reordered fixpoint twin reported reportedOther,
    pair.diagnostics_perm fixpoint twin reported reportedOther⟩
  rw [store_conclude, store_conclude]
  exact pair.store_reordered fixpoint twin

/-- A module with two covers and a variable, of which the variable alone has a known type. -/
def scatteredMain : Module where
  name := ⟨7⟩
  declarations := [⟨1⟩, ⟨3⟩, ⟨5⟩]
  imports := [⟨8⟩]
  symbols := [(⟨2⟩, ⟨1⟩), (⟨4⟩, ⟨3⟩), (⟨6⟩, ⟨5⟩)]

/-- That module, and another one from which it imports the type of the variable. -/
def scattered : Store :=
  ⟨#[⟨.typeRef { name := ⟨1⟩ }, ⟨10, 17⟩⟩,
    ⟨.cover { header := { name := ⟨2⟩ }, fromType := some ⟨0⟩ }, ⟨0, 17⟩⟩,
    ⟨.typeRef { name := ⟨3⟩ }, ⟨25, 30⟩⟩,
    ⟨.variable { header := { name := ⟨4⟩ }, type := some ⟨2⟩ }, ⟨18, 30⟩⟩,
    ⟨.typeRef { name := ⟨5⟩ }, ⟨41, 45⟩⟩,
    ⟨.cover { header := { name := ⟨6⟩ }, fromType := some ⟨4⟩ }, ⟨31, 45⟩⟩,
    ⟨.module scatteredMain, ⟨0, 45⟩⟩,
    ⟨.typeRef { name := ⟨9⟩ }, ⟨61, 64⟩⟩,
    ⟨.cover { header := { name := ⟨3⟩ }, fromType := some ⟨7⟩ }, ⟨46, 64⟩⟩,
    ⟨.module { name := ⟨8⟩, declarations := [⟨8⟩], symbols := [(⟨3⟩, ⟨8⟩)] }, ⟨46, 64⟩⟩]⟩

/-- The same modules, with the declarations of the first listed backwards. -/
def scatteredReversed : Store :=
  scattered.modify ⟨6⟩ fun _ => .module { scatteredMain with declarations := [⟨5⟩, ⟨3⟩, ⟨1⟩] }

def scatteredNames : NameTable :=
  .ofTexts ["Missing", "Lost", "Count", "limit", "Gone", "Void", "main", "lib", "Int"]

def scatteredForwards : Resolution :=
  (ofModules scattered scatteredNames [⟨6⟩, ⟨9⟩]).withBudget ⟨11⟩

def scatteredBackwards : Resolution :=
  (ofModules scatteredReversed scatteredNames [⟨9⟩, ⟨6⟩]).withBudget ⟨12⟩

theorem run_order_independent_scattered :
    scatteredForwards.run.1.status = .unresolved [⟨0⟩, ⟨4⟩] ∧
    scatteredBackwards.run.1.status = .unresolved [⟨4⟩, ⟨0⟩] ∧
    scatteredForwards.run.2.store.Reordered scatteredBackwards.run.2.store ∧
    scatteredForwards.run.2.log.diagnostics.Perm scatteredBackwards.run.2.log.diagnostics := by
  have fresh : scattered.Fresh := by decide
  have forest : scattered.Forest := Store.forest_of_earlier (by decide) (by decide)
  have lists : (ofModules scattered scatteredNames [⟨6⟩, ⟨9⟩]).ListsModules := by decide
  have reordered : scattered.Reordered scatteredReversed :=
    @Store.reordered_modify scattered ⟨6⟩ scatteredMain [⟨5⟩, ⟨3⟩, ⟨1⟩] rfl (by decide)
  have few : (ofModules scattered scatteredNames [⟨6⟩, ⟨9⟩]).typeCount ≤ 10 :=
    typeCount_le_size _
  obtain ⟨stores, -, reports⟩ := run_order_independent scatteredNames ⟨11⟩ ⟨12⟩ fresh forest lists
    (by decide) reordered (List.Perm.swap _ _ _) (Nat.lt_succ_of_le few)
    (show _ < 12 by omega)
  rw [scatteredForwards, scatteredBackwards]
  exact ⟨by decide, by decide, stores, reports⟩

end Resolution

end Declarations
