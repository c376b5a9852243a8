import Declarations.Proofs.LogHistory

/-!
# Logs by what they hold

A log is told by its policy and its diagnostics: the number of errors and the keys that it remembers
follow from them, and so does its answer to every report. A report is put at the end or changes
nothing, so what a log holds only grows. A log to which no report was forced has kept to its policy:
it holds no more errors than the limit allows and no two reports with the same key.
-/

namespace Declarations

/-- Whether a report is kept whatever the policy. -/
def LogCall.isForced : LogCall → Bool
  | .force _ => true
  | .add _ | .emit _ => false

namespace Log

variable {log : Log} {diagnostic : Diagnostic}

theorem add_of_leavesOut (leftOut : log.leavesOut diagnostic = true) :
    log.add diagnostic = (false, log) := by
  simp [add, leftOut]

theorem add_of_keeps (keeps : log.leavesOut diagnostic = false) :
    log.add diagnostic = (true, (log.remember diagnostic.key).push diagnostic) := by
  simp [add, keeps]

/-! ## What a call changes -/

/-- A call keeps its diagnostic, as the policy allows or by force, or it changes nothing. -/
theorem after_cases (log : Log) (call : LogCall) :
    log.after call = log ∨ ∃ diagnostic,
      log.after call = (log.remember diagnostic.key).push diagnostic ∧
        (call.isForced = false → log.leavesOut diagnostic = false) := by
  cases call with
  | add diagnostic | emit diagnostic =>
    cases leftOut : log.leavesOut diagnostic with
    | true => simp [after, emitError, add_of_leavesOut leftOut]
    | false => exact Or.inr ⟨diagnostic, by simp [after, emitError, add_of_keeps leftOut, leftOut]⟩
  | force diagnostic => exact Or.inr ⟨diagnostic, by simp [after, forceError, LogCall.isForced]⟩

theorem policy_after (log : Log) (call : LogCall) : (log.after call).policy = log.policy := by
  rcases log.after_cases call with same | ⟨diagnostic, kept, -⟩
  · rw [same]
  · simp [kept, push]

theorem prefix_after (log : Log) (call : LogCall) :
    log.diagnostics <+: (log.after call).diagnostics := by
  rcases log.after_cases call with same | ⟨diagnostic, kept, -⟩
  · rw [same]
  · simp [kept, push]

theorem policy_afterAll (log : Log) (calls : List LogCall) :
    (log.afterAll calls).policy = log.policy := by
  induction calls generalizing log with
  | nil => rfl
  | cons call rest ih => exact (ih (log.after call)).trans (log.policy_after call)

theorem prefix_afterAll (log : Log) (calls : List LogCall) :
    log.diagnostics <+: (log.afterAll calls).diagnostics := by
  induction calls generalizing log with
  | nil => exact List.prefix_rfl
  | cons call rest ih => exact (log.prefix_after call).trans (ih (log.after call))

/-! ## Logs that keep to their policy -/

/-- The log holds what its policy allows. -/
structure WithinPolicy (log : Log) : Prop where
  /-- The number of errors is not above a limit. -/
  limited : 0 < log.policy.errorLimit →
    log.diagnostics.countP Diagnostic.isError ≤ log.policy.errorLimit
  /-- No two diagnostics have the same key, if keys matter. -/
  distinct : log.policy.deduplicate = true → (log.diagnostics.map Diagnostic.key).Nodup

namespace WithinPolicy

theorem ofPolicy (policy : LogPolicy) : (Log.ofPolicy policy).WithinPolicy where
  limited _ := Nat.zero_le _
  distinct _ := List.nodup_nil

/-- A diagnostic that is not left out is new, and if it is an error there is room for it. -/
theorem keep (within : log.WithinPolicy) (faithful : log.Faithful)
    (keeps : log.leavesOut diagnostic = false) :
    ((log.remember diagnostic.key).push diagnostic).WithinPolicy := by
  have admitted : ¬ log.leavesOut diagnostic = true := by simp [keeps]
  rw [faithful.leavesOut_iff, not_or] at admitted
  obtain ⟨belowLimit, isNew⟩ := admitted
  constructor
  · intro positive
    simp only [push, policy_remember, diagnostics_remember, List.countP_append] at positive ⊢
    have before := within.limited positive
    by_cases isError : diagnostic.isError = true
    · have room : ¬ log.policy.errorLimit ≤ log.diagnostics.countP Diagnostic.isError :=
        fun reached => belowLimit ⟨isError, positive, reached⟩
      simp only [List.countP_singleton, isError, if_true]
      omega
    · simp only [List.countP_singleton, isError, Bool.false_eq_true, if_false]
      omega
  · intro dedup
    simp only [push, policy_remember, diagnostics_remember, List.map_append] at dedup ⊢
    have unseen : ∀ kept ∈ log.diagnostics, kept.key ≠ diagnostic.key :=
      fun kept member same => isNew ⟨dedup, kept, member, same⟩
    refine (within.distinct dedup).append (List.nodup_singleton _) ?_
    simpa using unseen

theorem after (within : log.WithinPolicy) (faithful : log.Faithful) {call : LogCall}
    (unforced : call.isForced = false) : (log.after call).WithinPolicy := by
  rcases log.after_cases call with same | ⟨diagnostic, kept, keeps⟩
  · rw [same]
    exact within
  · rw [kept]
    exact within.keep faithful (keeps unforced)

theorem afterAll (within : log.WithinPolicy) (faithful : log.Faithful) {calls : List LogCall}
    (unforced : ∀ call ∈ calls, call.isForced = false) : (log.afterAll calls).WithinPolicy := by
  induction calls generalizing log with
  | nil => exact within
  | cons call rest ih =>
    refine ih (within.after faithful (unforced call List.mem_cons_self)) (faithful.after call) ?_
    intro other member
    exact unforced other (List.mem_cons_of_mem call member)

end WithinPolicy

/-! ## What a log does, told by what it holds -/

/-- All about a log with a policy can be read off its diagnostics. -/
structure ToldByContents (log : Log) (policy : LogPolicy) : Prop where
  policy_eq : log.policy = policy
  /-- It counts the errors that it holds. -/
  counts : log.errorCount = log.diagnostics.countP Diagnostic.isError
  /-- It remembers the keys of what it holds, if keys matter. -/
  remembers : policy.deduplicate = true →
    ∀ key, key ∈ log.seen ↔ ∃ kept ∈ log.diagnostics, kept.key = key
  /-- It keeps a report unless that is an error past the limit or has a key that is there. -/
  keeps_iff : ∀ diagnostic, (log.add diagnostic).1 = true ↔
    ¬ (diagnostic.isError = true ∧ 0 < policy.errorLimit ∧
      policy.errorLimit ≤ log.diagnostics.countP Diagnostic.isError) ∧
    ¬ (policy.deduplicate = true ∧ ∃ kept ∈ log.diagnostics, kept.key = diagnostic.key)
  /-- What it keeps is put at the end. -/
  kept : ∀ diagnostic, (log.add diagnostic).1 = true →
    (log.add diagnostic).2.diagnostics = log.diagnostics ++ [diagnostic]
  /-- What it leaves out changes nothing. -/
  leftOut : ∀ diagnostic, (log.add diagnostic).1 = false → (log.add diagnostic).2 = log

theorem Faithful.toldByContents (faithful : log.Faithful) : log.ToldByContents log.policy where
  policy_eq := rfl
  counts := faithful.counts
  remembers := faithful.remembers
  keeps_iff diagnostic := by
    rw [← not_or, ← faithful.leavesOut_iff]
    cases leftOut : log.leavesOut diagnostic with
    | true => simp [add_of_leavesOut leftOut]
    | false => simp [add_of_keeps leftOut]
  kept diagnostic answer := by
    cases leftOut : log.leavesOut diagnostic with
    | true => simp [add_of_leavesOut leftOut] at answer
    | false => simp [add_of_keeps leftOut, push]
  leftOut diagnostic answer := by
    cases leftOut : log.leavesOut diagnostic with
    | true => simp [add_of_leavesOut leftOut]
    | false => simp [add_of_keeps leftOut] at answer

/-- Whatever was reported to a log, and in whichever way, all about it can be read off its
diagnostics, and these stay where they are whatever is reported next. If no report was forced, the
log holds what its policy allows. -/
theorem contents_characterise (policy : LogPolicy) (calls more : List LogCall) :
    ((ofPolicy policy).afterAll calls).ToldByContents policy ∧
    ((ofPolicy policy).afterAll calls).diagnostics <+:
      ((ofPolicy policy).afterAll (calls ++ more)).diagnostics ∧
    ((∀ call ∈ calls, call.isForced = false) →
      ((ofPolicy policy).afterAll calls).WithinPolicy) := by
  have faithful := Faithful.ofPolicy policy
  refine ⟨?_, ?_, ?_⟩
  · have told := (faithful.afterAll calls).toldByContents
    rw [policy_afterAll] at told
    exact told
  · have split : (ofPolicy policy).afterAll (calls ++ more) =
        ((ofPolicy policy).afterAll calls).afterAll more := List.foldl_append
    rw [split]
    exact prefix_afterAll _ more
  · exact (WithinPolicy.ofPolicy policy).afterAll faithful

/-- A warning and two errors, one of them reported twice, and an error past a limit of two. -/
def crowding : List LogCall :=
  [.add suspectedType, .emit (.notAType ⟨20, 24⟩ "size" "variable"),
    .add (.notAType ⟨20, 24⟩ "size" "variable"), .add (.notAValue ⟨30, 33⟩ "Int" "builtin type"),
    .emit (.notAValue ⟨40, 43⟩ "Int" "builtin type")]

/-- The log is full; a further warning is still kept, and so is an error by force, after which the
limit is passed. -/
theorem contents_characterise_crowding :
    (∀ call ∈ crowding, call.isForced = false) ∧
    ((ofPolicy { errorLimit := 2 }).afterAll crowding).WithinPolicy ∧
    ((ofPolicy { errorLimit := 2 }).afterAll crowding).errorCount = 2 ∧
    (((ofPolicy { errorLimit := 2 }).afterAll crowding).add (.warning .notAType)).1 = true ∧
    ((ofPolicy { errorLimit := 2 }).afterAll
      (crowding ++ [.force (.notAValue ⟨40, 43⟩ "Int" "builtin type")])).errorCount = 3 := by
  have unforced : ∀ call ∈ crowding, call.isForced = false := by decide
  obtain ⟨told, -, within⟩ := contents_characterise { errorLimit := 2 } crowding []
  refine ⟨unforced, within unforced, by decide, ?_, by decide⟩
  exact (told.keeps_iff _).mpr (by decide)

end Log

end Declarations
