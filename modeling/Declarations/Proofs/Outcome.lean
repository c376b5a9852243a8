import Declarations.Proofs.LogHistory
import Declarations.Proofs.Refusal

/-!
# Outcomes and reports

What a log leaves out has no influence on a resolution: it goes the way it goes with a log that
keeps everything, and its own log is what the same reports make of it. So the outcome of a run is
told by the reports. It is a failure if there was an error before or a walk reported a fault that no
pass can mend, whether or not the log kept the report; and all is resolved if, and only if, the log
has no error in the end.
-/

namespace Declarations

/-- The faults that walks report. No later pass can mend them. -/
def Code.isHard : Code → Bool
  | .notAType | .notAValue | .internalError => true
  | _ => false

namespace Log

variable {log : Log} {report : Diagnostic} {reports : List Diagnostic}

/-- What a resolution does with a report: one on a reference that is left open is kept in any case,
the others if the policy allows. -/
def record (log : Log) (report : Diagnostic) : Log :=
  if report.code = .unresolvedReference then (log.forceError report).2
  else (log.emitError report).2

/-- The log after several reports, the first of the list first. -/
def recordAll (log : Log) (reports : List Diagnostic) : Log := reports.foldl record log

/-- A log of errors alone that counts and remembers what it holds. -/
structure Candid (log : Log) : Prop where
  faithful : log.Faithful
  onlyErrors : ∀ kept ∈ log.diagnostics, kept.isError = true

theorem record_hard (log : Log) (hard : report.code.isHard = true) :
    log.record report = (log.emitError report).2 := by
  apply if_neg
  intro isOpen
  rw [isOpen] at hard
  cases hard

theorem recordAll_concat (log : Log) (reports : List Diagnostic) (report : Diagnostic) :
    log.recordAll (reports ++ [report]) = (log.recordAll reports).record report := by
  simp [recordAll]

/-- The reports on what is left open are kept, one after another. -/
theorem recordAll_append_open (log : Log) (reports : List Diagnostic)
    (deferrals : List Deferral) :
    log.recordAll (reports ++ deferrals.map fun deferral =>
        .unresolvedReference deferral.span deferral.reason) =
      deferrals.foldl (fun log deferral =>
        (log.forceError (.unresolvedReference deferral.span deferral.reason)).2)
        (log.recordAll reports) := by
  rw [recordAll, List.foldl_append, List.foldl_map]
  rfl

namespace Candid

/-- Only warnings and notes can mask an error. -/
theorem not_masks (candid : log.Candid) (report : Diagnostic) : ¬ log.Masks report := by
  rintro ⟨-, harmless, kept, member, -⟩
  have isError := candid.onlyErrors kept member
  rw [harmless kept member] at isError
  cases isError

theorem keep (candid : log.Candid) (isError : report.isError = true) :
    ((log.remember report.key).push report).Candid where
  faithful := candid.faithful.keep report
  onlyErrors := by
    simp only [push, diagnostics_remember, List.mem_append, List.mem_singleton]
    rintro kept (earlier | rfl)
    · exact candid.onlyErrors kept earlier
    · exact isError

theorem emitError (candid : log.Candid) (isError : report.isError = true) :
    (log.emitError report).2.Candid := by
  unfold Log.emitError Log.add
  split
  · exact candid
  · exact candid.keep isError

/-- After an error was reported, the log holds one. -/
theorem holdsError_emitError (candid : log.Candid) (isError : report.isError = true) :
    (log.emitError report).2.HoldsError :=
  candid.faithful.holdsError_of_not_masks isError (candid.not_masks report)

theorem record (candid : log.Candid) (isError : report.isError = true) :
    (log.record report).Candid ∧ (log.record report).HoldsError := by
  unfold Log.record
  split
  · refine ⟨candid.keep isError, report, ?_, isError⟩
    simp [forceError, push]
  · exact ⟨candid.emitError isError, candid.holdsError_emitError isError⟩

/-- The log holds an error in the end if it held one before or anything was reported. -/
theorem recordAll (candid : log.Candid) (errors : ∀ report ∈ reports, report.isError = true) :
    (log.recordAll reports).Candid ∧
      ((log.recordAll reports).HoldsError ↔ log.HoldsError ∨ reports ≠ []) := by
  induction reports generalizing log with
  | nil => exact ⟨candid, by simp [Log.recordAll]⟩
  | cons report rest ih =>
    obtain ⟨recorded, holds⟩ := candid.record (errors report List.mem_cons_self)
    obtain ⟨candidRest, holdsRest⟩ :=
      ih recorded fun other member => errors other (List.mem_cons_of_mem _ member)
    refine ⟨candidRest, fun _ => Or.inr (List.cons_ne_nil _ _), fun _ => ?_⟩
    exact holdsRest.mpr (Or.inl holds)

theorem errorCount_eq_zero_iff (candid : log.Candid) : log.errorCount = 0 ↔ ¬ log.HoldsError := by
  rw [← candid.faithful.errorCount_pos_iff]
  omega

end Candid

end Log

/-- A reference is given up with an error on a fault that no pass can mend. -/
theorem Resolution.judge_reject {resolution : Resolution} {path : Path} {id : NodeId}
    {content : Content} {report : Diagnostic}
    (judged : resolution.judge path id content = .reject report) :
    report.isError = true ∧ report.code.isHard = true := by
  obtain ⟨name, found, rfl | rfl⟩ := judge_reject_cases judged
  · exact ⟨rfl, rfl⟩
  · exact ⟨rfl, rfl⟩

namespace Resolution

variable {resolution : Resolution} {log : Log} {report : Diagnostic}

/-! ## Another log -/

/-- The resolution with a log that is empty and keeps everything. -/
def unfiltered (resolution : Resolution) : Resolution :=
  { resolution with log := .ofPolicy .unlimited }

/-- The resolution with another log, to which its reports are made. -/
def relog (resolution : Resolution) (log : Log) : Resolution :=
  { resolution with log := log.recordAll resolution.log.diagnostics }

/-- The log keeps everything. -/
def KeepsAll (resolution : Resolution) : Prop := resolution.log.policy = .unlimited

theorem relog_reportFatal (keepsAll : resolution.KeepsAll) (hard : report.code.isHard = true) :
    (resolution.reportFatal report).relog log = (resolution.relog log).reportFatal report := by
  have kept := (Log.emitError_unlimited keepsAll report).2
  simp only [relog, reportFatal, kept, Log.recordAll_concat, Log.record_hard _ hard]

section LogInvariant

variable (Inv : Log → Bool → Prop)
  (reports : ∀ {log failed report}, report.isError = true → report.code.isHard = true →
    Inv log failed → Inv (log.emitError report).2 true)

include reports

/-- Of the steps of a walk only a report changes the log and makes a failure. -/
theorem Walks.log_invariant {levels : Nat} {path : Path} {id : NodeId} {start final : Resolution}
    {progress : Progress} (walked : Walks levels path id start progress final)
    (holds : Inv start.log start.failed) : Inv final.log final.failed := by
  refine walked.invariant (fun current => Inv current.log current.failed) (fun _ _ => True)
    (fun _ _ _ _ _ _ => trivial) ?_ ?_ ?_ ?_ ?_ trivial holds
  · intro path id current _ holds _
    exact reports rfl rfl holds
  · intro path id current content bound _ holds _ _ _ _
    exact holds
  · intro path id current content reason _ holds _ _ _ _
    exact holds
  · intro path id current content report _ holds _ _ _ judged
    obtain ⟨isError, hard⟩ := judge_reject judged
    exact reports isError hard holds
  · intro path id current content _ holds _ _ _ _
    exact holds

theorem pass_log_invariant (acyclic : resolution.store.Acyclic)
    (holds : Inv resolution.log resolution.failed) :
    Inv resolution.pass.2.log resolution.pass.2.failed := by
  refine (pass_visits acyclic).invariant (fun current => Inv current.log current.failed) ?_ holds
  intro id _ start progress final walked
  exact walked.log_invariant Inv reports

end LogInvariant

theorem Walks.keepsAll {levels : Nat} {path : Path} {id : NodeId} {start final : Resolution}
    {progress : Progress} (walked : Walks levels path id start progress final)
    (keepsAll : start.KeepsAll) : final.KeepsAll :=
  walked.log_invariant (fun log _ => log.policy = .unlimited)
    (fun _ _ unlimited => (Log.emitError_unlimited unlimited _).1) keepsAll

theorem pass_keepsAll (acyclic : resolution.store.Acyclic) (keepsAll : resolution.KeepsAll) :
    resolution.pass.2.KeepsAll :=
  pass_log_invariant (fun log _ => log.policy = .unlimited)
    (fun _ _ unlimited => (Log.emitError_unlimited unlimited _).1) acyclic keepsAll

/-- The walks below a node go the same way with another log if each of them does. -/
theorem VisitsStages.relog {levels : Nat} {path : Path} {stages : List (List NodeId)}
    {start final : Resolution} {progress : Progress} (log : Log)
    (visited : VisitsStages (fun child before own after =>
      ∃ _ : Walks levels path child before own after, before.KeepsAll →
        Walks levels path child (before.relog log) own (after.relog log))
      stages start progress final) (keepsAll : start.KeepsAll) :
    VisitsStages (Walks levels path) stages (start.relog log) progress (final.relog log) := by
  have bounded := visited.between (fun first second => first.KeepsAll → second.KeepsAll)
    (fun _ keeps => keeps) (fun first second keeps => second (first keeps))
    (fun _ _ _ _ _ visit => visit.1.keepsAll)
  refine (bounded.imp ?_).map (fun other : Resolution => other.relog log)
  intro child _ before own after visit
  exact visit.1.2 (visit.2.1 keepsAll)

/-- A walk does not look at the log. -/
theorem Walks.relog {levels : Nat} {path : Path} {id : NodeId} {start final : Resolution}
    {progress : Progress} (walked : Walks levels path id start progress final) (log : Log)
    (keepsAll : start.KeepsAll) :
    Walks levels path id (start.relog log) progress (final.relog log) := by
  induction walked using Walks.induction with
  | missing found =>
    rw [relog_reportFatal keepsAll rfl]
    exact .missing found
  | marked found isMarked => exact .marked found isMarked
  | bind found isReference isOpen judged => exact .bind found isReference isOpen judged
  | wait found isReference isOpen judged => exact .wait found isReference isOpen judged
  | @reject levels path id start content report found isReference isOpen judged =>
    have again : Walks (levels + 1) path id (start.relog log) .done
        (((start.relog log).reportFatal report).modify id fun _ => content.givenUp) :=
      .reject found isReference isOpen judged
    rw [← relog_reportFatal keepsAll (judge_reject judged).2] at again
    exact again
  | @finish levels path id start final content found notReference isOpen _ stages =>
    have foundAgain : (start.relog log).store.content? id = some content := found
    exact .finish foundAgain notReference isOpen (stages.relog log keepsAll)
  | @stop levels path id start final content found notReference isOpen _ stages =>
    have foundAgain : (start.relog log).store.content? id = some content := found
    exact .stop foundAgain notReference isOpen (stages.relog log keepsAll)

theorem pass_relog (acyclic : resolution.store.Acyclic) (log : Log)
    (keepsAll : resolution.KeepsAll) :
    (resolution.relog log).pass = (resolution.pass.1, resolution.pass.2.relog log) := by
  have bounded := (pass_visits acyclic).between
    (fun first second => first.KeepsAll → second.KeepsAll) (fun _ keeps => keeps)
    (fun first second keeps => second (first keeps)) (fun _ _ _ _ _ walked => walked.keepsAll)
  have relogged := bounded.imp fun id _ before own after visit =>
    visit.1.relog log (visit.2.1 keepsAll)
  exact pass_eq_of_visitsAll (relogged.map fun other : Resolution => other.relog log)

theorem passesWithin_relog (acyclic : resolution.store.Acyclic) (log : Log)
    (keepsAll : resolution.KeepsAll) (count : Nat) :
    passesWithin count (resolution.relog log) =
      ((passesWithin count resolution).1, (passesWithin count resolution).2.relog log) := by
  induction count generalizing resolution with
  | zero => rfl
  | succ count ih =>
    have acyclicAfter := (pass_advances acyclic).store.acyclic acyclic
    have keepsAllAfter := pass_keepsAll acyclic keepsAll
    rw [passesWithin, passesWithin, pass_relog acyclic log keepsAll]
    cases passed : resolution.pass with
    | mk progress after =>
      rw [passed] at acyclicAfter keepsAllAfter
      cases progress with
      | done => rfl
      | pending => exact ih acyclicAfter keepsAllAfter

/-- What is left open is reported to another log in the same way. -/
theorem conclude_relog (log : Log) (keepsAll : resolution.KeepsAll) (progress : Progress) :
    (resolution.relog log).conclude progress = (resolution.conclude progress).relog log := by
  cases progress with
  | done => rfl
  | pending =>
    have same : (resolution.relog log).deferrals = resolution.deferrals := rfl
    rw [conclude, conclude, reportOpen, reportOpen, same]
    split
    · exact (relog_reportFatal keepsAll rfl).symm
    · rw [relog, relog, Log.diagnostics_foldl_forceError, Log.recordAll_append_open]

/-! ## What walks report -/

/-- Walks report errors on faults that no pass can mend, and every report is a failure. -/
structure Unmended (before : Bool) (log : Log) (failed : Bool) : Prop where
  keepsAll : log.policy = .unlimited
  hard : ∀ made ∈ log.diagnostics, made.isError = true ∧ made.code.isHard = true
  failed_iff : failed = true ↔ before = true ∨ log.diagnostics ≠ []

namespace Unmended

variable {before failed : Bool}

theorem emitError (unmended : Unmended before log failed) (isError : report.isError = true)
    (hard : report.code.isHard = true) : Unmended before (log.emitError report).2 true := by
  obtain ⟨keepsAll, kept⟩ := Log.emitError_unlimited unmended.keepsAll report
  refine ⟨keepsAll, ?_, ?_⟩
  · rw [kept]
    intro made member
    rcases List.mem_append.mp member with earlier | own
    · exact unmended.hard made earlier
    · rw [List.mem_singleton.mp own]
      exact ⟨isError, hard⟩
  · simp [kept]

/-- As no other reports are made, there is a failure whenever one is on a fault of this kind. -/
theorem failed_iff_hard (unmended : Unmended before log failed) :
    failed = true ↔ before = true ∨ ∃ made ∈ log.diagnostics, made.code.isHard = true := by
  rw [unmended.failed_iff]
  refine or_congr_right ⟨?_, ?_⟩
  · intro nonempty
    obtain ⟨made, member⟩ := List.exists_mem_of_ne_nil _ nonempty
    exact ⟨made, member, (unmended.hard made member).2⟩
  · rintro ⟨made, member, -⟩
    exact List.ne_nil_of_mem member

end Unmended

theorem unmended_passesOfRun (acyclic : resolution.store.Acyclic) :
    Unmended resolution.failed resolution.unfiltered.passesOfRun.2.log
      resolution.unfiltered.passesOfRun.2.failed := by
  have begins : Unmended resolution.failed resolution.unfiltered.log
      resolution.unfiltered.failed :=
    { keepsAll := rfl
      hard := List.forall_mem_nil _
      failed_iff := by simp [unfiltered, Log.ofPolicy] }
  obtain ⟨last, ⟨advances, unmended⟩, ends⟩ := exists_last_pass resolution.unfiltered
    (fun current => resolution.unfiltered.Advances current ∧
      Unmended resolution.failed current.log current.failed)
    (fun holds => by
      have acyclicNow := holds.1.store.acyclic acyclic
      exact ⟨holds.1.trans (pass_advances acyclicNow),
        pass_log_invariant (Unmended resolution.failed)
          (fun isError hard kept => kept.emitError isError hard) acyclicNow holds.2⟩)
    ⟨.refl _, begins⟩
  rw [ends]
  exact pass_log_invariant (Unmended resolution.failed)
    (fun isError hard kept => kept.emitError isError hard) (advances.store.acyclic acyclic) unmended

/-- A run goes the way it goes with a log that keeps everything, and makes the same reports. -/
theorem run_eq_relog (acyclic : resolution.store.Acyclic) :
    resolution.run =
      (resolution.unfiltered.run.1, resolution.unfiltered.run.2.relog resolution.log) := by
  have relogged : resolution.passesOfRun = (resolution.unfiltered.passesOfRun.1,
      resolution.unfiltered.passesOfRun.2.relog resolution.log) :=
    @passesWithin_relog resolution.unfiltered acyclic resolution.log rfl _
  have keepsAll := (unmended_passesOfRun acyclic).keepsAll
  cases passes : resolution.unfiltered.passesOfRun with
  | mk progress final =>
    rw [passes] at relogged keepsAll
    rw [run_eq relogged, run_eq passes, conclude_relog resolution.log keepsAll]
    rfl

/-! ## What the reports tell -/

theorem status_eq_failed_iff (resolution : Resolution) (progress : Progress) :
    resolution.status progress = .failed ↔ resolution.failed = true := by
  unfold status
  cases resolution.failed <;> cases progress <;> simp

theorem status_eq_resolved_iff (resolution : Resolution) (progress : Progress) :
    resolution.status progress = .resolved ↔ resolution.failed = false ∧ progress = .done := by
  unfold status
  cases resolution.failed <;> cases progress <;> simp

/-- How a run ended, told by whether there was a failure before it and what it reported. -/
structure Tells (before : Bool) (reports : List Diagnostic) (status : Status) : Prop where
  errors : ∀ made ∈ reports, made.isError = true
  failed_iff : status = .failed ↔ before = true ∨ ∃ made ∈ reports, made.code.isHard = true
  resolved_iff : status = .resolved ↔ before = false ∧ reports = []

theorem Unmended.tells {before : Bool} {final : Resolution}
    (unmended : Unmended before final.log final.failed) (progress : Progress) :
    Tells before (final.conclude progress).log.diagnostics
      ((final.conclude progress).status progress) := by
  cases progress with
  | done =>
    refine ⟨fun made member => (unmended.hard made member).1, ?_, ?_⟩
    · rw [status_eq_failed_iff]
      exact unmended.failed_iff_hard
    · rw [status_eq_resolved_iff, ← Bool.not_eq_true, ← Bool.not_eq_true]
      simp [conclude, unmended.failed_iff]
  | pending =>
    rw [conclude, reportOpen]
    split
    · -- a run that stalls reports that as well
      have isError : (Diagnostic.internalError .nowhere
        "resolution stalled without a pending node").isError = true := rfl
      have stalled := unmended.emitError isError rfl
      refine ⟨fun made member => (stalled.hard made member).1, ?_, ?_⟩
      · rw [status_eq_failed_iff]
        exact stalled.failed_iff_hard
      · rw [status_eq_resolved_iff]
        simp [reportFatal, Log.emitError_unlimited unmended.keepsAll]
    · next nonempty =>
      rw [List.isEmpty_iff] at nonempty
      refine ⟨?_, ?_, ?_⟩
      · rw [Log.diagnostics_foldl_forceError]
        intro made member
        rcases List.mem_append.mp member with earlier | own
        · exact (unmended.hard made earlier).1
        · obtain ⟨deferral, -, rfl⟩ := List.mem_map.mp own
          rfl
      · rw [status_eq_failed_iff, Log.diagnostics_foldl_forceError]
        -- what is left open can be mended
        have soft : ∀ deferral : Deferral,
            (Diagnostic.unresolvedReference deferral.span deferral.reason).code.isHard = false :=
          fun _ => rfl
        simpa [or_and_right, exists_or, soft] using unmended.failed_iff_hard
      · rw [status_eq_resolved_iff, Log.diagnostics_foldl_forceError]
        simp [nonempty]

theorem run_tells (acyclic : resolution.store.Acyclic) :
    Tells resolution.failed resolution.unfiltered.run.2.log.diagnostics
      resolution.run.1.status := by
  have tells := (unmended_passesOfRun acyclic).tells resolution.unfiltered.passesOfRun.1
  rw [run_eq_relog acyclic]
  cases passes : resolution.unfiltered.passesOfRun with
  | mk progress final =>
    rw [passes] at tells
    rw [run_eq passes]
    exact tells

/-! ## Registrations before the run -/

/-- Register elements with enumerations, one after another, also after a refusal. -/
def addElements : List (NodeId × NodeId) → Resolution → List (Except ErrorToken Unit) × Resolution
  | [], resolution => ([], resolution)
  | (enumId, elementId) :: rest, resolution =>
    let (answer, resolution) := resolution.addElement enumId elementId
    let (answers, resolution) := addElements rest resolution
    (answer :: answers, resolution)

/-- The log holds errors alone, and there was a failure if it holds any. -/
structure Candid (resolution : Resolution) : Prop where
  log : resolution.log.Candid
  failed_iff : resolution.failed = true ↔ resolution.log.HoldsError

theorem candid_withLog (resolution : Resolution) (candid : log.Candid) :
    (resolution.withLog log).Candid where
  log := candid
  failed_iff := candid.faithful.hasErrors?_iff

theorem addElement_of_ok {enumId elementId : NodeId} {final : Store}
    (registered : (Store.register enumId elementId).apply resolution.store = (.ok (), final)) :
    resolution.addElement enumId elementId = (.ok (), { resolution with store := final }) := by
  rw [addElement, Store.addElement_of_ok resolution.names resolution.log registered]

theorem addElement_of_error {enumId elementId : NodeId} {final : Store} {error : RegistrationError}
    (refused : (Store.register enumId elementId).apply resolution.store = (.error error, final)) :
    resolution.addElement enumId elementId =
      (.error {}, resolution.reportFatal
        (resolution.store.registrationReport resolution.names enumId error)) := by
  rw [addElement, Store.addElement_of_error resolution.names resolution.log refused]
  rfl

/-- A registration leaves the log candid, and a refusal is the only failure it can make. -/
theorem Candid.addElement (candid : resolution.Candid) (enumId elementId : NodeId) :
    (resolution.addElement enumId elementId).2.Candid ∧
      ((resolution.addElement enumId elementId).2.failed = true ↔ resolution.failed = true ∨
        ∃ token, (resolution.addElement enumId elementId).1 = .error token) := by
  cases applied : (Store.register enumId elementId).apply resolution.store with
  | mk result final =>
    cases result with
    | ok =>
      rw [addElement_of_ok applied]
      exact ⟨⟨candid.log, candid.failed_iff⟩, by simp⟩
    | error error =>
      have isError := resolution.store.isError_registrationReport resolution.names enumId error
      rw [addElement_of_error applied]
      refine ⟨⟨candid.log.emitError isError, ?_⟩, ?_⟩
      · exact ⟨fun _ => candid.log.holdsError_emitError isError, fun _ => rfl⟩
      · exact ⟨fun _ => Or.inr ⟨{}, rfl⟩, fun _ => rfl⟩

theorem Candid.addElements (candid : resolution.Candid) (registrations : List (NodeId × NodeId)) :
    (addElements registrations resolution).2.Candid ∧
      ((addElements registrations resolution).2.failed = true ↔ resolution.failed = true ∨
        ∃ token, .error token ∈ (addElements registrations resolution).1) := by
  induction registrations generalizing resolution with
  | nil => exact ⟨candid, by simp [Resolution.addElements]⟩
  | cons registration rest ih =>
    obtain ⟨enumId, elementId⟩ := registration
    obtain ⟨candidNext, failedNext⟩ := candid.addElement enumId elementId
    obtain ⟨candidFinal, failedFinal⟩ := ih candidNext
    refine ⟨candidFinal, failedFinal.trans ?_⟩
    rw [failedNext]
    simp only [Resolution.addElements, List.mem_cons, exists_or, or_assoc, eq_comm]

/-- Take a log of errors alone, however it came about, and register elements before a run. The run
ends with all resolved exactly if the log has no error in the end. It fails exactly if the log had
an error, a registration was refused or a walk reported a fault that no pass can mend. The reports
are those of the run with a log that keeps everything; the log decides which of them it keeps, and
nothing else. -/
theorem run_status_iff (store : Store) (names : NameTable) (modules : List NodeId)
    (budget : Budget) (registrations : List (NodeId × NodeId)) {log : Log}
    (reachable : log.Reachable) (onlyErrors : ∀ kept ∈ log.diagnostics, kept.isError = true)
    {answers : List (Except ErrorToken Unit)} {begun : Resolution}
    (registered : addElements registrations
      (((ofModules store names modules).withBudget budget).withLog log) = (answers, begun))
    (acyclic : begun.store.Acyclic) :
    (begun.run.1.status = .resolved ↔ begun.run.2.log.errorCount = 0) ∧
    (begun.run.1.status = .failed ↔ log.HoldsError ∨ (∃ token, .error token ∈ answers) ∨
      ∃ made ∈ begun.unfiltered.run.2.log.diagnostics, made.code.isHard = true) ∧
    begun.run.2 = begun.unfiltered.run.2.relog begun.log := by
  have candidLog : log.Candid := ⟨.of_reachable reachable, onlyErrors⟩
  obtain ⟨candid, failed⟩ := (candid_withLog
    ((ofModules store names modules).withBudget budget) candidLog).addElements registrations
  rw [registered] at candid failed
  have tells := run_tells acyclic
  have relogged := congrArg Prod.snd (run_eq_relog acyclic)
  obtain ⟨candidFinal, holds⟩ := candid.log.recordAll tells.errors
  refine ⟨?_, ?_, relogged⟩
  · have noError : begun.run.2.log.errorCount = 0 ↔ ¬ (begun.log.HoldsError ∨
        begun.unfiltered.run.2.log.diagnostics ≠ []) := by
      rw [relogged, ← holds]
      exact candidFinal.errorCount_eq_zero_iff
    rw [tells.resolved_iff, noError, ← candid.failed_iff]
    simp
  · rw [tells.failed_iff, failed, or_assoc]
    exact or_congr_left (candid_withLog _ candidLog).failed_iff

/-- A log that takes one error and has it already. -/
def fullLog : Log :=
  (Log.ofPolicy { errorLimit := 1 }).afterAll [.emit (.duplicateMember ⟨0, 3⟩ "Red" "Tint" ⟨4, 7⟩)]

/-- A variable whose type is a variable, a cover of an unknown type, and an enumeration with two
elements of one name. -/
def overfull : Resolution :=
  ((ofModules
    ⟨#[⟨.typeRef { name := ⟨1⟩ }, ⟨6, 11⟩⟩,
      ⟨.variable { header := { name := ⟨2⟩ }, type := some ⟨0⟩ }, ⟨0, 11⟩⟩,
      ⟨.variable { header := { name := ⟨1⟩ } }, ⟨12, 17⟩⟩,
      ⟨.typeRef { name := ⟨3⟩ }, ⟨24, 31⟩⟩,
      ⟨.cover { header := { name := ⟨4⟩ }, fromType := some ⟨3⟩ }, ⟨18, 31⟩⟩,
      ⟨.literal (.int 0), ⟨32, 60⟩⟩,
      ⟨.literal (.int 4), ⟨43, 44⟩⟩,
      ⟨.element { header := { name := ⟨5⟩ }, value := some ⟨6⟩, valueSet := true }, ⟨37, 44⟩⟩,
      ⟨.element { header := { name := ⟨5⟩ } }, ⟨46, 49⟩⟩,
      ⟨.enum { header := { name := ⟨6⟩ }, lastValue := ⟨5⟩ }, ⟨32, 60⟩⟩,
      ⟨.module
        { name := ⟨7⟩
          declarations := [⟨1⟩, ⟨2⟩, ⟨4⟩, ⟨9⟩]
          symbols := [(⟨2⟩, ⟨1⟩), (⟨1⟩, ⟨2⟩), (⟨4⟩, ⟨4⟩), (⟨6⟩, ⟨9⟩)] }, ⟨0, 60⟩⟩]⟩
    (.ofTexts ["limit", "size", "Missing", "Alias", "Red", "Color", "main"])
    [⟨10⟩]).withBudget ⟨2⟩).withLog fullLog

/-- The second registration is refused and a variable is no type, and the log keeps neither report;
the reference that is left open is kept. The report that was not kept tells the failure. -/
theorem run_status_iff_overfull :
    fullLog.Reachable ∧ fullLog.diagnostics.map Diagnostic.isError = [true] ∧
    (addElements [(⟨9⟩, ⟨7⟩), (⟨9⟩, ⟨8⟩)] overfull).1 = [.ok (), .error {}] ∧
    (addElements [(⟨9⟩, ⟨7⟩), (⟨9⟩, ⟨8⟩)] overfull).2.run.2.log.diagnostics.map Diagnostic.code =
      [.duplicateMember, .unresolvedReference] ∧
    (addElements [(⟨9⟩, ⟨7⟩), (⟨9⟩, ⟨8⟩)] overfull).2.run.1.status = .failed := by
  have reachable : fullLog.Reachable := ⟨_, _, rfl⟩
  have acyclic : (addElements [(⟨9⟩, ⟨7⟩), (⟨9⟩, ⟨8⟩)] overfull).2.store.Acyclic :=
    Store.acyclic_of_earlier (by decide)
  have failed := (run_status_iff _ _ _ _ _ reachable (by decide) rfl acyclic).2.1
  refine ⟨reachable, by decide, rfl, by decide, failed.mpr (Or.inr (Or.inr ?_))⟩
  exact ⟨.notAType ⟨6, 11⟩ "limit" "variable", by decide, rfl⟩

end Resolution

end Declarations
