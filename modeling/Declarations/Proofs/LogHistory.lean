import Declarations.Proofs.Reports

/-!
# Logs and their histories

Whatever is reported to a log, and in whichever way, the log counts the errors that it holds and,
where it leaves out repeated reports, remembers the keys of what it holds. So what it does with a
report depends on its policy and its diagnostics alone. A caller that reports an error gets a token
also when the error is left out. The token is the proof of an error in the log with one exception:
the severity is not part of a key, and a log without any error leaves out an error that has the key
of a warning or a note.
-/

namespace Declarations

/-- The ways to report to a log. -/
inductive LogCall where
  | add (diagnostic : Diagnostic)
  | emit (diagnostic : Diagnostic)
  | force (diagnostic : Diagnostic)
  deriving DecidableEq, Repr

namespace Log

/-- The log after a call. -/
def after (log : Log) : LogCall → Log
  | .add diagnostic => (log.add diagnostic).2
  | .emit diagnostic => (log.emitError diagnostic).2
  | .force diagnostic => (log.forceError diagnostic).2

/-- The log after several calls, the first of the list first. -/
def afterAll (log : Log) (calls : List LogCall) : Log := calls.foldl after log

/-- The log is what some calls make of an empty one. -/
def Reachable (log : Log) : Prop := ∃ policy calls, log = (ofPolicy policy).afterAll calls

/-- What a log counts and remembers is what it holds. -/
structure Faithful (log : Log) : Prop where
  counts : log.errorCount = log.diagnostics.countP Diagnostic.isError
  remembers : log.policy.deduplicate = true →
    ∀ key, key ∈ log.seen ↔ ∃ kept ∈ log.diagnostics, kept.key = key

/-- An error is among the diagnostics. -/
def HoldsError (log : Log) : Prop := ∃ kept ∈ log.diagnostics, kept.isError = true

variable {log : Log} {diagnostic : Diagnostic}

@[simp] theorem errorCount_remember (log : Log) (key : DiagnosticKey) :
    (log.remember key).errorCount = log.errorCount := by
  unfold remember
  split <;> rfl

/-- A key that is remembered stands beside the earlier ones. -/
theorem mem_seen_remember (dedup : log.policy.deduplicate = true) (key other : DiagnosticKey) :
    other ∈ (log.remember key).seen ↔ other = key ∨ other ∈ log.seen := by
  unfold remember
  by_cases known : key ∈ log.seen
  · have absorbed : other = key → other ∈ log.seen := fun same => same ▸ known
    simpa [dedup, known] using absorbed
  · simp [dedup, known]

/-! ## Every log counts and remembers what it holds -/

namespace Faithful

theorem ofPolicy (policy : LogPolicy) : (Log.ofPolicy policy).Faithful where
  counts := rfl
  remembers _ key := by simp [Log.ofPolicy]

/-- A diagnostic that is kept is counted and its key remembered. -/
theorem keep (faithful : log.Faithful) (diagnostic : Diagnostic) :
    ((log.remember diagnostic.key).push diagnostic).Faithful where
  counts := by
    cases severe : diagnostic.isError <;> simp [push, faithful.counts, severe]
  remembers dedup key := by
    have dedupBefore : log.policy.deduplicate = true := by simpa [push] using dedup
    have before := faithful.remembers dedupBefore key
    simp only [push, mem_seen_remember dedupBefore, before, diagnostics_remember,
      List.mem_append, List.mem_singleton]
    constructor
    · rintro (rfl | ⟨kept, member, same⟩)
      · exact ⟨diagnostic, Or.inr rfl, rfl⟩
      · exact ⟨kept, Or.inl member, same⟩
    · rintro ⟨kept, member | rfl, same⟩
      · exact Or.inr ⟨kept, member, same⟩
      · exact Or.inl same.symm

theorem add (faithful : log.Faithful) (diagnostic : Diagnostic) :
    (log.add diagnostic).2.Faithful := by
  unfold Log.add
  split
  · exact faithful
  · exact faithful.keep diagnostic

theorem after (faithful : log.Faithful) (call : LogCall) : (log.after call).Faithful := by
  cases call with
  | add diagnostic | emit diagnostic => exact faithful.add diagnostic
  | force diagnostic => exact faithful.keep diagnostic

theorem afterAll (faithful : log.Faithful) (calls : List LogCall) :
    (log.afterAll calls).Faithful := by
  induction calls generalizing log with
  | nil => exact faithful
  | cons call rest ih => exact ih (faithful.after call)

theorem of_reachable (reachable : log.Reachable) : log.Faithful := by
  obtain ⟨policy, calls, rfl⟩ := reachable
  exact (ofPolicy policy).afterAll calls

theorem errorCount_pos_iff (faithful : log.Faithful) : 0 < log.errorCount ↔ log.HoldsError := by
  rw [faithful.counts, List.countP_pos_iff]
  rfl

theorem hasErrors?_iff (faithful : log.Faithful) :
    log.hasErrors?.isSome = true ↔ log.HoldsError := by
  rw [← faithful.errorCount_pos_iff, hasErrors?, ErrorToken.ofCount?]
  split <;> simp_all

/-- What is left out can be read off the diagnostics: errors past the limit, and repeated keys. -/
theorem leavesOut_iff (faithful : log.Faithful) :
    log.leavesOut diagnostic = true ↔
      (diagnostic.isError = true ∧ 0 < log.policy.errorLimit ∧
        log.policy.errorLimit ≤ log.diagnostics.countP Diagnostic.isError) ∨
      (log.policy.deduplicate = true ∧
        ∃ kept ∈ log.diagnostics, kept.key = diagnostic.key) := by
  have repeated : log.policy.deduplicate = true ∧ diagnostic.key ∈ log.seen ↔
      log.policy.deduplicate = true ∧ ∃ kept ∈ log.diagnostics, kept.key = diagnostic.key :=
    and_congr_right fun dedup => faithful.remembers dedup diagnostic.key
  rw [← repeated, ← faithful.counts]
  simp [leavesOut, limitReached]

end Faithful

/-! ## Tokens -/

/-- Without an error in the log, an error is left out for a warning or a note that has its key. -/
def Masks (log : Log) (diagnostic : Diagnostic) : Prop :=
  log.policy.deduplicate = true ∧ (∀ kept ∈ log.diagnostics, kept.isError = false) ∧
    ∃ kept ∈ log.diagnostics, kept.key = diagnostic.key

instance (log : Log) (diagnostic : Diagnostic) : Decidable (log.Masks diagnostic) :=
  inferInstanceAs (Decidable (_ ∧ _ ∧ _))

/-- An error that is kept is in the log, and one that is left out finds another there. -/
theorem Faithful.holdsError_of_not_masks (faithful : log.Faithful)
    (isError : diagnostic.isError = true) (unmasked : ¬ log.Masks diagnostic) :
    (log.emitError diagnostic).2.HoldsError := by
  unfold emitError Log.add
  split
  · next dropped =>
    rcases faithful.leavesOut_iff.mp dropped with ⟨-, limited, reached⟩ | ⟨dedup, known⟩
    · -- a limit that is reached is positive
      exact List.countP_pos_iff.mp (Nat.lt_of_lt_of_le limited reached)
    · by_contra none
      refine unmasked ⟨dedup, ?_, known⟩
      intro kept member
      by_contra severe
      exact none ⟨kept, member, by simpa using severe⟩
  · exact ⟨diagnostic, by simp [push], isError⟩

theorem Faithful.not_holdsError_of_masks (faithful : log.Faithful) (masks : log.Masks diagnostic) :
    ¬ (log.emitError diagnostic).2.HoldsError := by
  obtain ⟨dedup, harmless, known⟩ := masks
  have dropped : log.leavesOut diagnostic = true :=
    faithful.leavesOut_iff.mpr (Or.inr ⟨dedup, known⟩)
  rintro ⟨kept, member, isError⟩
  simp only [emitError, Log.add, dropped, if_true] at member
  rw [harmless kept member] at isError
  cases isError

/-- After an error was reported to a log, however the log came about, it says that it has errors
exactly if it holds one, and it holds one unless a warning or a note masked the error. -/
theorem emitError_recorded_iff (reachable : log.Reachable)
    (isError : diagnostic.isError = true) :
    ((log.emitError diagnostic).2.hasErrors?.isSome = true ↔
      (log.emitError diagnostic).2.HoldsError) ∧
    ((log.emitError diagnostic).2.HoldsError ↔ ¬ log.Masks diagnostic) := by
  have faithful := Faithful.of_reachable reachable
  refine ⟨(faithful.add diagnostic).hasErrors?_iff, ?_, ?_⟩
  · intro holds masks
    exact faithful.not_holdsError_of_masks masks holds
  · exact faithful.holdsError_of_not_masks isError

/-- A warning on a name that is no type. -/
def suspectedType : Diagnostic :=
  { Diagnostic.notAType ⟨4, 9⟩ "limit" "variable" with severity := .warning }

/-- A log that takes one error and no report twice. It has a warning on the name and an error on
another one. -/
def guarded : Log :=
  (ofPolicy { errorLimit := 1, deduplicate := true }).afterAll
    [.add suspectedType, .force (.notAType ⟨20, 24⟩ "size" "variable")]

/-- The error with the key of the warning is left out for two reasons, and the token is true. -/
theorem emitError_recorded_guarded :
    guarded.Reachable ∧ guarded.leavesOut (.notAType ⟨4, 9⟩ "limit" "variable") = true ∧
    (guarded.emitError (.notAType ⟨4, 9⟩ "limit" "variable")).2.hasErrors?.isSome = true := by
  have reachable : guarded.Reachable := ⟨_, _, rfl⟩
  obtain ⟨tells, holds⟩ := @emitError_recorded_iff guarded (.notAType ⟨4, 9⟩ "limit" "variable")
    reachable rfl
  exact ⟨reachable, by decide, tells.mpr (holds.mpr (by decide))⟩

/-- A log with the standard policy that holds the warning alone. -/
def unguarded : Log := (ofPolicy {}).afterAll [.add suspectedType]

/-- The error is left out here as well, and the log gives out a token but holds no error. -/
theorem not_recorded_unguarded :
    unguarded.Reachable ∧ Diagnostic.isError (.notAType ⟨4, 9⟩ "limit" "variable") = true ∧
    (unguarded.emitError (.notAType ⟨4, 9⟩ "limit" "variable")).2.hasErrors? = none ∧
    ¬ (unguarded.emitError (.notAType ⟨4, 9⟩ "limit" "variable")).2.HoldsError := by
  have harmless : ∀ kept ∈
      (unguarded.emitError (.notAType ⟨4, 9⟩ "limit" "variable")).2.diagnostics,
      kept.isError = false := by decide
  refine ⟨⟨_, _, rfl⟩, rfl, by decide, ?_⟩
  rintro ⟨kept, member, isError⟩
  rw [harmless kept member] at isError
  cases isError

end Log

end Declarations
