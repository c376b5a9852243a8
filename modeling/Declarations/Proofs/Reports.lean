import Declarations.Proofs.IdlePass

/-!
# What a run reports

A log that keeps everything holds one report for each reference that was given up, and the report is
the one that the judgement of the reference names. What a run leaves open is deferred once, with the
reason that its judgement names. Both are said of the end of a run alone, without its course.
-/

namespace Declarations

namespace Log

variable {log : Log}

@[simp] theorem policy_remember (log : Log) (key : DiagnosticKey) :
    (log.remember key).policy = log.policy := by
  rw [remember]
  split <;> rfl

@[simp] theorem diagnostics_remember (log : Log) (key : DiagnosticKey) :
    (log.remember key).diagnostics = log.diagnostics := by
  rw [remember]
  split <;> rfl

/-- A log without limit and without deduplication keeps every error. -/
theorem emitError_unlimited (unlimited : log.policy = .unlimited) (diagnostic : Diagnostic) :
    (log.emitError diagnostic).2.policy = .unlimited ∧
      (log.emitError diagnostic).2.diagnostics = log.diagnostics ++ [diagnostic] := by
  have keeps : log.leavesOut diagnostic = false := by
    simp [leavesOut, limitReached, unlimited, LogPolicy.unlimited]
  simp [emitError, add, keeps, push, unlimited]

/-- Forced errors are kept whatever the policy. -/
theorem diagnostics_foldl_forceError {α : Type} (report : α → Diagnostic) (items : List α)
    (log : Log) :
    (items.foldl (fun log item => (log.forceError (report item)).2) log).diagnostics =
      log.diagnostics ++ items.map report := by
  induction items generalizing log with
  | nil => simp
  | cons item rest ih =>
    rw [List.foldl_cons, ih]
    simp [forceError, push]

end Log

namespace Resolution

/-! ## Reports on references that are given up -/

/-- The judgement of a reference is that it is given up, with this report. -/
def Rejects (base current : Resolution) (id : NodeId) (report : Diagnostic) : Prop :=
  ∃ path content, base.Position path id ∧ base.store.content? id = some content ∧
    content.isReference = true ∧ current.judge (path.push id) id content = .reject report

theorem Rejects.mono {base current next : Resolution} {id : NodeId} {report : Diagnostic}
    (rejects : Rejects base current id report) (advances : current.Advances next) :
    Rejects base next id report := by
  obtain ⟨path, content, position, found, isReference, judged⟩ := rejects
  exact ⟨path, content, position, found, isReference, advances.judge_eq_reject_iff.mpr judged⟩

theorem Rejects.unique {base current : Resolution} {id : NodeId} {report other : Diagnostic}
    (rejects : Rejects base current id report) (rejectsOther : Rejects base current id other)
    (placed : base.WellPlaced) (advances : base.Advances current) : report = other := by
  obtain ⟨path, content, position, found, -, judged⟩ := rejects
  obtain ⟨otherPath, again, otherPosition, foundAgain, -, judgedOther⟩ := rejectsOther
  rw [found] at foundAgain
  cases foundAgain
  rw [placed.judge_eq advances position otherPosition, judgedOther] at judged
  cases judged
  rfl

/-- The reports of a log are those on the references given up so far. -/
structure Reported (base current : Resolution) (given : List (NodeId × Diagnostic)) : Prop where
  policy : current.log.policy = .unlimited
  diagnostics : current.log.diagnostics = given.map Prod.snd
  failed : current.failed = true ↔ given ≠ []
  nodup : (given.map Prod.fst).Nodup
  givenUp : ∀ id, id ∈ given.map Prod.fst ↔ current.store.isGivenUp id = true
  rejected : ∀ {id report}, (id, report) ∈ given → Rejects base current id report

namespace Reported

variable {base current next : Resolution} {given : List (NodeId × Diagnostic)}

theorem of_fresh {base : Resolution} (fresh : base.store.Fresh)
    (policy : base.log.policy = .unlimited) (empty : base.log.diagnostics = [])
    (unfailed : base.failed = false) : Reported base base [] where
  policy := policy
  diagnostics := empty
  failed := by simp [unfailed]
  nodup := List.nodup_nil
  givenUp id := by
    constructor
    · intro member
      cases member
    · intro givenUp
      rw [fresh.not_isGivenUp] at givenUp
      cases givenUp
  rejected member := nomatch member

/-- A step that reports nothing and gives nothing up leaves the reports as they are. -/
theorem neutral (reported : Reported base current given) (advances : current.Advances next)
    (log : next.log = current.log) (failed : next.failed = current.failed)
    (same : ∀ id, next.store.isGivenUp id = current.store.isGivenUp id) :
    Reported base next given where
  policy := log ▸ reported.policy
  diagnostics := log ▸ reported.diagnostics
  failed := failed ▸ reported.failed
  nodup := reported.nodup
  givenUp id := by
    rw [same]
    exact reported.givenUp id
  rejected member := (reported.rejected member).mono advances

/-- A reference that is given up adds its report. -/
theorem reject {path : Path} {id : NodeId} {content : Content} {report : Diagnostic}
    (reported : Reported base current given) (position : base.Position path id)
    (since : base.Advances current) (found : current.store.content? id = some content)
    (isReference : content.isReference = true) (isOpen : content.isMarked = false)
    (judged : current.judge (path.push id) id content = .reject report) :
    Reported base ((current.reportFatal report).modify id fun _ => content.givenUp)
      (given ++ [(id, report)]) where
  policy := (Log.emitError_unlimited reported.policy report).1
  diagnostics := by
    have kept := (Log.emitError_unlimited reported.policy report).2
    rw [reported.diagnostics] at kept
    rw [List.map_append]
    exact kept
  failed := by
    refine ⟨fun _ => ?_, fun _ => rfl⟩
    exact List.append_ne_nil_of_right_ne_nil _ (List.cons_ne_nil _ _)
  nodup := by
    have isNew : id ∉ given.map Prod.fst := by
      rw [reported.givenUp, Store.isGivenUp_of_not_isMarked found isOpen]
      simp
    rw [List.map_append]
    exact reported.nodup.append (List.nodup_singleton id) (by simpa using isNew)
  givenUp other := by
    rw [isGivenUp_giveUp found isReference, List.map_append, List.mem_append, reported.givenUp]
    simp
  rejected := by
    have advances := advances_giveUp found isOpen report
    intro other otherReport member
    rcases List.mem_append.mp member with earlier | own
    · exact (reported.rejected earlier).mono advances
    · obtain ⟨rfl, rfl⟩ := Prod.mk.inj (List.mem_singleton.mp own)
      have foundBase := since.store.found_of_not_isMarked found isOpen
      have rejects : Rejects base current other otherReport :=
        ⟨path, content, position, foundBase, isReference, judged⟩
      exact rejects.mono advances

/-- There is a report on each reference that is given up, the one that its judgement names. -/
theorem mem_iff (reported : Reported base current given) (placed : base.WellPlaced)
    (advances : base.Advances current) (id : NodeId) (report : Diagnostic) :
    (id, report) ∈ given ↔
      current.store.isGivenUp id = true ∧ Rejects base current id report := by
  constructor
  · intro member
    exact ⟨(reported.givenUp id).mp (List.mem_map.mpr ⟨_, member, rfl⟩), reported.rejected member⟩
  · rintro ⟨isGivenUp, rejects⟩
    obtain ⟨⟨_, other⟩, member, rfl⟩ := List.mem_map.mp ((reported.givenUp id).mpr isGivenUp)
    rw [rejects.unique (reported.rejected member) placed advances]
    exact member

end Reported

theorem keeps_reported {base : Resolution} (placed : base.WellPlaced) :
    Keeps base.Position base.Reachable base fun current =>
      ∃ given, Reported base current given where
  missing justified position _ found := by
    have present := justified.advances.store.present_iff.mpr (placed.present position)
    rw [Store.Present, found] at present
    cases present
  bind _ _ extra found isReference isOpen judged := by
    obtain ⟨given, reported⟩ := extra
    exact ⟨given, reported.neutral (advances_bind found isReference isOpen judged) rfl rfl
      (isGivenUp_bind found isReference isOpen judged)⟩
  wait _ _ extra _ _ _ _ := by
    obtain ⟨given, reported⟩ := extra
    exact ⟨given, reported.neutral (advances_defer _ _ _) rfl rfl fun _ => rfl⟩
  reject justified position extra found isReference isOpen judged := by
    obtain ⟨given, reported⟩ := extra
    exact ⟨_, reported.reject position justified.advances found isReference isOpen judged⟩
  finish _ _ extra _ _ := by
    obtain ⟨given, reported⟩ := extra
    exact ⟨given, reported.neutral (advances_finish _ _) rfl rfl (isGivenUp_finish _ _)⟩

/-- The log of a run over fresh trees, before what is left open is reported. -/
theorem exists_reported {base : Resolution} (fresh : base.store.Fresh) (placed : base.WellPlaced)
    (policy : base.log.policy = .unlimited) (empty : base.log.diagnostics = [])
    (unfailed : base.failed = false) : ∃ given, Reported base base.passesOfRun.2 given := by
  have opens : ∀ {current : Resolution}, (∃ given, Reported base current given) →
      ∃ given, Reported base current.opening given := by
    rintro current ⟨given, reported⟩
    exact ⟨given, reported.neutral (advances_opening current) rfl rfl fun _ => rfl⟩
  exact (passesOfRun_keeps (route_position base) (keeps_reported placed) placed.acyclic opens
    ⟨[], .of_fresh fresh policy empty unfailed⟩).2

/-! ## What is left open -/

/-- A deferral is what the judgement of an open reference asks for. -/
def Awaits (resolution : Resolution) (At : Path → NodeId → Prop) (deferral : Deferral) : Prop :=
  ∃ path content, At path deferral.node ∧
    resolution.store.content? deferral.node = some content ∧ content.isReference = true ∧
    content.isMarked = false ∧
    resolution.judge (path.push deferral.node) deferral.node content = .wait deferral.reason ∧
    deferral.span = resolution.store.span deferral.node

/-- Everything deferred since a pass began was asked for by a judgement in its course. -/
structure Waiting (At : Path → NodeId → Prop) (begun current : Resolution) : Prop where
  advances : begun.Advances current
  awaits : ∀ deferral ∈ current.deferrals, ∃ judging : Resolution,
    begun.Advances judging ∧ judging.Advances current ∧ judging.Awaits At deferral

namespace Waiting

variable {At : Path → NodeId → Prop} {begun current next : Resolution} {path : Path} {id : NodeId}
  {content : Content}

theorem neutral (waiting : Waiting At begun current) (advances : current.Advances next)
    (same : next.deferrals = current.deferrals) : Waiting At begun next where
  advances := waiting.advances.trans advances
  awaits deferral member := by
    rw [same] at member
    obtain ⟨judging, since, rest, awaits⟩ := waiting.awaits deferral member
    exact ⟨judging, since, rest.trans advances, awaits⟩

theorem wait {reason : String} (waiting : Waiting At begun current) (place : At path id)
    (found : current.store.content? id = some content) (isReference : content.isReference = true)
    (isOpen : content.isMarked = false)
    (judged : current.judge (path.push id) id content = .wait reason) :
    Waiting At begun (current.defer id reason) where
  advances := waiting.advances.trans (advances_defer current id reason)
  awaits deferral member := by
    have toNext := advances_defer current id reason
    rcases mem_deferrals_defer member with earlier | ⟨rfl, rfl, span⟩
    · obtain ⟨judging, since, rest, awaits⟩ := waiting.awaits deferral earlier
      exact ⟨judging, since, rest.trans toNext, awaits⟩
    · refine ⟨current, waiting.advances, toNext, path, content, place, found, isReference, isOpen,
        judged, ?_⟩
      rcases span with own | ⟨earlier, known, sameNode, sameSpan⟩
      · exact own
      · obtain ⟨judging, -, rest, -, -, -, -, -, -, -, span⟩ := waiting.awaits earlier known
        rw [sameSpan, span, sameNode, rest.store.span]

end Waiting

theorem keeps_waiting (At : Path → NodeId → Prop) (Kept : NodeId → Prop)
    (base begun : Resolution) : Keeps At Kept base (Waiting At begun) where
  missing _ _ waiting _ := waiting.neutral (advances_reportFatal _ _) rfl
  bind _ _ waiting found isReference isOpen judged :=
    waiting.neutral (advances_bind found isReference isOpen judged) rfl
  wait _ place waiting found isReference isOpen judged :=
    waiting.wait place found isReference isOpen judged
  reject _ _ waiting found _ isOpen _ := waiting.neutral (advances_giveUp found isOpen _) rfl
  finish _ _ waiting _ _ := waiting.neutral (advances_finish _ _) rfl

namespace Fixpoint

variable {base final : Resolution} {progress : Progress} {resolved : Set NodeId}
  (fixpoint : Fixpoint base final progress resolved)

include fixpoint

/-- A reference that is still open where the rules lead has to wait, and is deferred. -/
theorem waits_of_reached {path : Path} {id : NodeId} {content : Content}
    (reached : base.Reached resolved path id) (found : final.store.content? id = some content)
    (isReference : content.isReference = true) (isOpen : content.isMarked = false) :
    id ∈ final.deferred ∧ ∃ reason, final.judge (path.push id) id content = .wait reason := by
  rcases revisits_or_settled fixpoint.fresh fixpoint.placed fixpoint.justified fixpoint.idle
    fixpoint.marks reached with
    ⟨own, revisits⟩ | settled
  · exact (revisits.reference found isReference isOpen).2
  · have marked := settled.isMarked found (Content.isMarkable_of_isReference isReference)
    rw [isOpen] at marked
    cases marked

/-- What the last pass deferred is what the judgements at its end ask for, where the rules lead. -/
theorem mem_deferrals_iff (deferral : Deferral) :
    deferral ∈ final.deferrals ↔ final.Awaits (base.Reached resolved) deferral := by
  have justified := fixpoint.justified
  have route := route_reached fixpoint.fresh fixpoint.placed fixpoint.closed
  have opened : Waiting (base.Reached resolved) final final.opening :=
    ⟨advances_opening final, fun _ member => nomatch member⟩
  obtain ⟨-, waiting⟩ := justified.pass_keeps route
    (keeps_waiting (base.Reached resolved) (· ∈ resolved) base final) fixpoint.placed.acyclic opened
  rw [fixpoint.idle] at waiting
  have awaits : ∀ deferral ∈ final.deferrals, final.Awaits (base.Reached resolved) deferral := by
    intro deferral member
    obtain ⟨judging, since, rest, awaits⟩ := waiting.awaits deferral member
    obtain ⟨path, content, reached, found, isReference, isOpen, judged, span⟩ := awaits
    -- the state is the same before and after the pass, and so it is in between
    have same : judging.store = final.store := since.store.antisymm rest.store
    rw [same] at found span
    refine ⟨path, content, reached, found, isReference, isOpen, ?_, span⟩
    rw [← judged]
    exact (since.judge_eq_of_store_eq same _ _ _).symm
  refine ⟨awaits deferral, ?_⟩
  rintro ⟨path, content, reached, found, isReference, isOpen, judged, span⟩
  obtain ⟨isDeferred, -⟩ := fixpoint.waits_of_reached reached found isReference isOpen
  obtain ⟨known, member, sameNode⟩ := List.mem_map.mp isDeferred
  obtain ⟨other, again, reachedAgain, foundAgain, -, -, judgedAgain, spanAgain⟩ :=
    awaits known member
  rw [sameNode] at reachedAgain foundAgain judgedAgain spanAgain
  rw [found] at foundAgain
  cases foundAgain
  rw [fixpoint.placed.judge_eq justified.advances reachedAgain.position reached.position, judged]
    at judgedAgain
  cases known
  cases deferral
  cases sameNode
  cases judgedAgain
  cases span.trans spanAgain.symm
  exact member

/-- The last pass was done exactly when it deferred nothing. -/
theorem done_iff : progress = .done ↔ final.deferrals = [] := by
  have acyclic := fixpoint.justified.advances.store.acyclic fixpoint.placed.acyclic
  have idle := fixpoint.idle
  cases progress with
  | done =>
    have empty := pass_deferrals_eq_nil acyclic (congrArg Prod.fst idle)
    rw [idle] at empty
    exact ⟨fun _ => empty, fun _ => rfl⟩
  | pending =>
    have nonempty := pass_deferred_ne_nil acyclic (congrArg Prod.fst idle)
    rw [idle] at nonempty
    refine ⟨fun isDone => (nomatch isDone), fun empty => absurd ?_ nonempty⟩
    exact List.map_eq_nil_iff.mpr empty

/-- A run that has come to an end reports what is deferred, and nothing else. -/
theorem conclude_eq :
    final.conclude progress =
      { final with
        log := final.deferrals.foldl
          (fun log deferral =>
            (log.forceError (.unresolvedReference deferral.span deferral.reason)).2)
          final.log } := by
  have ends := fixpoint.done_iff
  cases progress with
  | done =>
    rw [ends.mp rfl]
    rfl
  | pending =>
    have nonempty : ¬ final.deferrals.isEmpty = true := by
      rw [List.isEmpty_iff, ← ends]
      exact fun isDone => nomatch isDone
    rw [conclude, reportOpen, if_neg nonempty]

theorem status_conclude :
    (final.conclude progress).status progress = final.status progress := by
  rw [fixpoint.conclude_eq]
  rfl

theorem diagnostics_conclude :
    (final.conclude progress).log.diagnostics =
      final.log.diagnostics ++ final.deferrals.map fun deferral =>
        .unresolvedReference deferral.span deferral.reason := by
  rw [fixpoint.conclude_eq]
  exact Log.diagnostics_foldl_forceError _ _ _

end Fixpoint

end Resolution

end Declarations
