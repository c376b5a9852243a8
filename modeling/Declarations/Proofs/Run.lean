import Declarations.Proofs.Justified

/-!
# Runs and their last pass

A run ends with the answer of its last pass. What every pass keeps holds when the last one begins,
so a statement about runs is a statement about one pass and what came before it.
-/

namespace Declarations.Resolution

variable {resolution : Resolution}

theorem exists_last_pass_within (Inv : Resolution → Prop)
    (keeps : ∀ {current}, Inv current → Inv current.pass.2)
    (holds : Inv resolution) {count : Nat} (positive : 0 < count) :
    ∃ before, Inv before ∧ passesWithin count resolution = before.pass := by
  induction count generalizing resolution with
  | zero => omega
  | succ count ih =>
    rw [passesWithin]
    cases passed : resolution.pass with
    | mk progress after =>
      cases progress with
      | done => exact ⟨resolution, holds, passed.symm⟩
      | pending =>
        cases count with
        | zero => exact ⟨resolution, holds, passed.symm⟩
        | succ count =>
          have holdsAfter : Inv after := by
            have kept := keeps holds
            rw [passed] at kept
            exact kept
          exact ih holdsAfter (Nat.succ_pos count)

/-- The passes that a run makes. -/
def passesOfRun (resolution : Resolution) : Progress × Resolution :=
  passesWithin (max resolution.budget.maxPasses 1) resolution

/-- The passes of a run end with a pass, which begins with what passes keep. -/
theorem exists_last_pass (resolution : Resolution) (Inv : Resolution → Prop)
    (keeps : ∀ {current}, Inv current → Inv current.pass.2) (holds : Inv resolution) :
    ∃ before, Inv before ∧ resolution.passesOfRun = before.pass :=
  exists_last_pass_within Inv keeps holds (Nat.le_max_right _ 1)

/-- The marks that the passes of a run put have a reason, and what steps and the opening of a pass
keep beside it is kept. -/
theorem passesOfRun_keeps {At : Path → NodeId → Prop} {Kept : NodeId → Prop}
    {Extra : Resolution → Prop} (route : Route At Kept resolution)
    (keeps : Keeps At Kept resolution Extra) (acyclic : resolution.store.Acyclic)
    (opens : ∀ {current}, Extra current → Extra current.opening) (extra : Extra resolution) :
    Justified At Kept resolution resolution.passesOfRun.2 ∧ Extra resolution.passesOfRun.2 := by
  obtain ⟨before, ⟨justified, holds⟩, last⟩ := exists_last_pass resolution
    (fun current => Justified At Kept resolution current ∧ Extra current)
    (fun holds => holds.1.pass_keeps route keeps acyclic (opens holds.2))
    ⟨.refl resolution, extra⟩
  rw [last]
  exact justified.pass_keeps route keeps acyclic (opens holds)

theorem justified_passesOfRun {At : Path → NodeId → Prop} {Kept : NodeId → Prop}
    (route : Route At Kept resolution) (acyclic : resolution.store.Acyclic) :
    Justified At Kept resolution resolution.passesOfRun.2 :=
  (passesOfRun_keeps route (keeps_true At Kept resolution) acyclic (fun _ => trivial) trivial).1

/-- The listed modules are settled when the last pass was done. -/
theorem settled_of_passesOfRun (acyclic : resolution.store.Acyclic)
    (isDone : resolution.passesOfRun.1 = .done) {root : NodeId}
    (listed : root ∈ resolution.modules) :
    resolution.passesOfRun.2.store.Settled (resolution.passesOfRun.2.failed = true) root := by
  obtain ⟨before, advances, last⟩ := exists_last_pass resolution resolution.Advances
    (fun advances => advances.trans (pass_advances (advances.store.acyclic acyclic)))
    (.refl resolution)
  have visits := pass_visits (advances.store.acyclic acyclic)
  rw [← last, isDone, advances.modules] at visits
  exact visits.settled (fun _ _ _ _ walked => ⟨walked.advances, walked.settled⟩) root listed

/-- What a run makes of the end of its last pass: it reports what is still open. -/
def conclude (resolution : Resolution) : Progress → Resolution
  | .done => resolution
  | .pending => resolution.reportOpen

theorem run_eq {progress : Progress} {final : Resolution}
    (passes : resolution.passesOfRun = (progress, final)) :
    resolution.run =
      (⟨(final.conclude progress).passes, (final.conclude progress).status progress⟩,
        final.conclude progress) := by
  rw [passesOfRun] at passes
  rw [run, passes]
  cases progress <;> rfl

@[simp] theorem store_conclude (resolution : Resolution) (progress : Progress) :
    (resolution.conclude progress).store = resolution.store := by
  cases progress with
  | done => rfl
  | pending =>
    rw [conclude, reportOpen]
    split <;> rfl

theorem run_store (resolution : Resolution) :
    resolution.run.2.store = resolution.passesOfRun.2.store := by
  cases passes : resolution.passesOfRun with
  | mk progress final => rw [run_eq passes, store_conclude]

@[simp] theorem deferrals_conclude (resolution : Resolution) (progress : Progress) :
    (resolution.conclude progress).deferrals = resolution.deferrals := by
  cases progress with
  | done => rfl
  | pending =>
    rw [conclude, reportOpen]
    split <;> rfl

/-- Reporting does not look at the budget and the number of passes. -/
theorem conclude_recount (resolution : Resolution) (progress : Progress) (budget : Budget)
    (passes : Nat) :
    (resolution.recount budget passes).conclude progress =
      (resolution.conclude progress).recount budget passes := by
  cases progress with
  | done => rfl
  | pending =>
    have same : (resolution.recount budget passes).deferrals = resolution.deferrals := rfl
    rw [conclude, conclude, reportOpen, reportOpen, same]
    split <;> rfl

/-- A run that says that all is resolved made a last pass that was done, and nothing failed. -/
theorem passesOfRun_of_resolved (resolved : resolution.run.1.status = .resolved) :
    resolution.passesOfRun = (.done, resolution.run.2) ∧ resolution.run.2.failed = false := by
  cases passes : resolution.passesOfRun with
  | mk progress final =>
    rw [run_eq passes] at resolved ⊢
    dsimp only [status] at resolved ⊢
    cases failed : (final.conclude progress).failed with
    | true =>
      rw [failed] at resolved
      cases resolved
    | false =>
      rw [failed] at resolved
      cases progress with
      | done => exact ⟨rfl, rfl⟩
      | pending => cases resolved

end Declarations.Resolution
