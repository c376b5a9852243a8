import Declarations.Proofs.LogContents
import Declarations.Proofs.Pending

/-!
# One report for each reference that is given up

A walk comes by a reference in every pass in which something around it is still open. A reference
that is given up is marked, and walks pass over marks, so there is one report on it however many
passes and runs follow. Nothing that a resolution does can turn a verdict to wait into one to give
up. In trees a reference is judged alike wherever a walk meets it, and so a reference that is given
up was not deferred before either.
-/

namespace Declarations

/-- The faults for which a reference is given up. -/
def Code.isRejection : Code → Bool
  | .notAType | .notAValue => true
  | _ => false

/-- Whether a call makes passes over the listed modules and nothing else. -/
def Call.isRound : Call → Bool
  | .pass | .run => true
  | .defer _ _ | .resolve _ _ => false

/-- Forced errors leave the policy as it is. -/
theorem Log.policy_foldl_forceError {α : Type} (report : α → Diagnostic) (items : List α)
    (log : Log) :
    (items.foldl (fun log item => (log.forceError (report item)).2) log).policy = log.policy := by
  have calls : items.foldl (fun log item => (log.forceError (report item)).2) log =
      log.afterAll (items.map fun item => .force (report item)) := by
    rw [afterAll, List.foldl_map]
    rfl
  rw [calls, policy_afterAll]

namespace Resolution

variable {base current next resolution : Resolution} {path : Path} {id : NodeId}
  {given : List (NodeId × Diagnostic)} {content : Content} {report : Diagnostic}

/-! ## The reports -/

/-- There is one report on each reference that is given up: the one that its judgement names, with
the place of the reference. The compiler is at fault for nothing. -/
structure ReportsOnce (base current : Resolution) (given : List (NodeId × Diagnostic)) : Prop where
  policy : current.log.policy = .unlimited
  /-- The reports on references are those of the list, in order. -/
  rejections : current.log.diagnostics.filter (fun made => made.code.isRejection) =
    given.map Prod.snd
  nodup : (given.map Prod.fst).Nodup
  givenUp : ∀ id, id ∈ given.map Prod.fst ↔ current.store.isGivenUp id = true
  rejected : ∀ {id report}, (id, report) ∈ given →
    report.primarySpan? = some (base.store.span id) ∧ Rejects base base id report
  noFault : ∀ made ∈ current.log.diagnostics, made.code ≠ .internalError

namespace ReportsOnce

theorem of_fresh (fresh : base.store.Fresh) (policy : base.log.policy = .unlimited)
    (empty : base.log.diagnostics = []) : ReportsOnce base base [] where
  policy := policy
  rejections := by simp [empty]
  nodup := List.nodup_nil
  givenUp id := by simp [fresh.not_isGivenUp]
  rejected member := absurd member List.not_mem_nil
  noFault := by simp [empty]

theorem neutral (once : ReportsOnce base current given) (log : next.log = current.log)
    (same : ∀ id, next.store.isGivenUp id = current.store.isGivenUp id) :
    ReportsOnce base next given where
  policy := log ▸ once.policy
  rejections := log ▸ once.rejections
  nodup := once.nodup
  givenUp id := by
    rw [same]
    exact once.givenUp id
  rejected := once.rejected
  noFault := log ▸ once.noFault

/-- A reference that is given up was open, so it is new among those that are, and its report comes
last. -/
theorem reject (once : ReportsOnce base current given) (position : base.Position path id)
    (since : base.Advances current) (found : current.store.content? id = some content)
    (isReference : content.isReference = true) (isOpen : content.isMarked = false)
    (judged : current.judge (path.push id) id content = .reject report) :
    ReportsOnce base ((current.reportFatal report).modify id fun _ => content.givenUp)
      (given ++ [(id, report)]) := by
  obtain ⟨unlimited, kept⟩ := Log.emitError_unlimited once.policy report
  have rejects : Rejects base base id report :=
    ⟨path, content, position, since.store.found_of_not_isMarked found isOpen, isReference,
      since.judge_eq_reject_iff.mp judged⟩
  obtain ⟨isRejection, place⟩ : report.code.isRejection = true ∧
      report.primarySpan? = some (base.store.span id) := by
    rw [← since.store.span]
    obtain ⟨name, stands, rfl | rfl⟩ := judge_reject_cases judged
    · exact ⟨rfl, rfl⟩
    · exact ⟨rfl, rfl⟩
  refine ⟨unlimited, ?_, ?_, ?_, ?_, ?_⟩
  · change (current.log.emitError report).2.diagnostics.filter _ = _
    rw [kept, List.filter_append, once.rejections, List.map_append]
    simp [isRejection]
  · have isNew : id ∉ given.map Prod.fst := by
      rw [once.givenUp, Store.isGivenUp_of_not_isMarked found isOpen]
      simp
    rw [List.map_append]
    exact once.nodup.append (List.nodup_singleton id) (by simpa using isNew)
  · intro other
    rw [isGivenUp_giveUp found isReference, List.map_append, List.mem_append, once.givenUp]
    simp
  · intro other otherReport member
    rcases List.mem_append.mp member with earlier | own
    · exact once.rejected earlier
    · obtain ⟨rfl, rfl⟩ := Prod.mk.inj (List.mem_singleton.mp own)
      exact ⟨place, rejects⟩
  · change ∀ made ∈ (current.log.emitError report).2.diagnostics, _
    rw [kept]
    intro made member
    rcases List.mem_append.mp member with earlier | own
    · exact once.noFault made earlier
    · rw [List.mem_singleton.mp own]
      intro atFault
      rw [atFault] at isRejection
      cases isRejection

/-- What is left open is reported beside it, as long as something is. -/
theorem conclude (once : ReportsOnce base current given) {progress : Progress}
    (nonempty : progress = .pending → current.deferrals ≠ []) :
    ReportsOnce base (current.conclude progress) given := by
  cases progress with
  | done => exact once
  | pending =>
    have someOpen : ¬ current.deferrals.isEmpty = true := by simpa using nonempty rfl
    have code : ∀ deferral : Deferral,
        (Diagnostic.unresolvedReference deferral.span deferral.reason).code =
          .unresolvedReference := fun _ => rfl
    rw [Resolution.conclude, reportOpen, if_neg someOpen]
    refine ⟨?_, ?_, once.nodup, once.givenUp, once.rejected, ?_⟩
    · rw [Log.policy_foldl_forceError]
      exact once.policy
    · rw [Log.diagnostics_foldl_forceError, List.filter_append, once.rejections]
      simp [code, Code.isRejection]
    · rw [Log.diagnostics_foldl_forceError]
      intro made member
      rcases List.mem_append.mp member with earlier | own
      · exact once.noFault made earlier
      · obtain ⟨deferral, -, rfl⟩ := List.mem_map.mp own
        simp [code]

end ReportsOnce

theorem keeps_reportsOnce
    (present : ∀ {path id}, base.Position path id → base.store.Present id) :
    Keeps base.Position base.Reachable base fun current =>
      ∃ given, ReportsOnce base current given where
  missing justified position _ found := by
    have there := justified.advances.store.present_iff.mpr (present position)
    rw [Store.Present, found] at there
    cases there
  bind _ _ extra found isReference isOpen judged := by
    obtain ⟨given, once⟩ := extra
    exact ⟨given, once.neutral rfl (isGivenUp_bind found isReference isOpen judged)⟩
  wait _ _ extra _ _ _ _ := by
    obtain ⟨given, once⟩ := extra
    exact ⟨given, once.neutral rfl fun _ => rfl⟩
  reject justified position extra found isReference isOpen judged := by
    obtain ⟨given, once⟩ := extra
    exact ⟨_, once.reject position justified.advances found isReference isOpen judged⟩
  finish _ _ extra _ _ := by
    obtain ⟨given, once⟩ := extra
    exact ⟨given, once.neutral rfl (isGivenUp_finish _ _)⟩

/-! ## Passes and runs -/

/-- The marks since the start have a reason, and there is one report on each reference that is given
up. -/
def Audited (base current : Resolution) : Prop :=
  Justified base.Position base.Reachable base current ∧ ∃ given, ReportsOnce base current given

namespace Audited

variable (acyclic : base.store.Acyclic)
  (present : ∀ {path id}, base.Position path id → base.store.Present id)

include acyclic present

theorem pass (audited : base.Audited current) : base.Audited current.pass.2 := by
  obtain ⟨justified, given, once⟩ := audited
  exact justified.pass_keeps (route_position base) (keeps_reportsOnce present) acyclic
    ⟨given, once.neutral rfl fun _ => rfl⟩

theorem run (audited : base.Audited current) : base.Audited current.run.2 := by
  obtain ⟨before, auditedBefore, last⟩ := exists_last_pass current base.Audited
    (fun holds => pass acyclic present holds) audited
  obtain ⟨justified, given, once⟩ := pass acyclic present auditedBefore
  -- a run that ends with something open has deferred it
  have nonempty : before.pass.1 = .pending → before.pass.2.deferrals ≠ [] :=
    (pendingExact (auditedBefore.1.advances.store.acyclic acyclic)).pending_iff.mp
  have passes : current.passesOfRun = (before.pass.1, before.pass.2) := last
  rw [run_eq passes]
  exact ⟨justified.neutral (advances_conclude _ _) (store_conclude _ _), given,
    once.conclude nonempty⟩

theorem afterAll (audited : base.Audited current) {calls : List Call}
    (rounds : ∀ call ∈ calls, call.isRound = true) : base.Audited (current.afterAll calls) := by
  induction calls generalizing current with
  | nil => exact audited
  | cons call rest ih =>
    have roundsRest : ∀ call ∈ rest, call.isRound = true :=
      fun other member => rounds other (List.mem_cons_of_mem call member)
    have isRound := rounds call List.mem_cons_self
    cases call with
    | pass => exact ih (audited.pass acyclic present) roundsRest
    | run => exact ih (audited.run acyclic present) roundsRest
    | defer id reason | resolve path id => cases isRound

end Audited

/-! ## Deferrals -/

/-- The next pass asks to defer a node. -/
def PassDefers (resolution : Resolution) (id : NodeId) : Prop :=
  ∃ request ∈ resolution.passRequests, request.node = id

theorem mem_deferred_pass_iff (acyclic : resolution.store.Acyclic) :
    id ∈ resolution.pass.2.deferred ↔ resolution.PassDefers id := by
  rw [(pass_summarises acyclic).order, List.mem_eraseDups, List.mem_map, PassDefers]

/-- A pass asks to defer what is open when it begins and has to wait when a walk meets it. -/
theorem PassDefers.exists_wait (defers : resolution.PassDefers id)
    (acyclic : resolution.store.Acyclic) :
    ∃ judging path content reason, resolution.Advances judging ∧ resolution.Position path id ∧
      resolution.store.content? id = some content ∧ content.isMarked = false ∧
      judging.judge (path.push id) id content = .wait reason := by
  have opened : Waiting resolution.Position resolution resolution.opening :=
    ⟨advances_opening resolution, List.forall_mem_nil _⟩
  obtain ⟨-, waiting⟩ := (Justified.refl resolution).pass_keeps (route_position resolution)
    (keeps_waiting resolution.Position resolution.Reachable resolution resolution) acyclic opened
  obtain ⟨deferral, member, rfl⟩ := List.mem_map.mp ((mem_deferred_pass_iff acyclic).mpr defers)
  obtain ⟨judging, since, -, awaits⟩ := waiting.awaits deferral member
  obtain ⟨path, content, position, found, -, isOpen, judged, -⟩ := awaits
  exact ⟨judging, path, content, _, since, position,
    since.store.found_of_not_isMarked found isOpen, isOpen, judged⟩

/-- A reference that is given up when a pass begins is not deferred in it. -/
theorem not_passDefers_of_isGivenUp (acyclic : resolution.store.Acyclic)
    (isGivenUp : resolution.store.isGivenUp id = true) : ¬ resolution.PassDefers id := by
  intro defers
  obtain ⟨-, -, content, -, -, -, found, isOpen, -⟩ := defers.exists_wait acyclic
  rw [Store.isGivenUp_of_not_isMarked found isOpen] at isGivenUp
  cases isGivenUp

/-- In a tree a reference whose judgement is that it is given up is not deferred in any pass. -/
theorem Rejects.not_passDefers (rejects : Rejects base base id report) (placed : base.WellPlaced)
    (since : base.Advances current) : ¬ current.PassDefers id := by
  intro defers
  obtain ⟨path, content, position, found, -, judged⟩ := rejects
  obtain ⟨judging, other, again, reason, toJudging, otherPosition, foundAgain, isOpen, waits⟩ :=
    defers.exists_wait (since.store.acyclic placed.acyclic)
  have same := since.store.found_of_not_isMarked foundAgain isOpen
  rw [found] at same
  cases same
  have advances := since.trans toJudging
  rw [placed.judge_eq advances (since.position_iff.mp otherPosition) position,
    advances.judge_eq_reject_iff.mpr judged] at waits
  cases waits

/-- Take a fresh forest, any list of its nodes as modules and a log that is empty and keeps all.
After any number of passes and runs there is one report on each reference that is given up, with its
place, and no report on a fault of the compiler. From then on no pass defers such a reference,
whatever is called before it; and if the listed nodes are modules, no pass defers it at any time. -/
theorem rejections_reported_once (fresh : resolution.store.Fresh)
    (forest : resolution.store.Forest)
    (listed : ∀ id ∈ resolution.modules, resolution.store.Present id)
    (policy : resolution.log.policy = .unlimited) (empty : resolution.log.diagnostics = [])
    {calls : List Call} (rounds : ∀ call ∈ calls, call.isRound = true) :
    (∃ given, ReportsOnce resolution (resolution.afterAll calls) given) ∧
    ∀ id, (resolution.afterAll calls).store.isGivenUp id = true →
      (∀ more, ¬ (resolution.afterAll (calls ++ more)).PassDefers id ∧
        id ∉ (resolution.afterAll (calls ++ more)).pass.2.deferred) ∧
      (resolution.ListsModules → ∀ others, ¬ (resolution.afterAll others).PassDefers id) := by
  have acyclic := forest.acyclic
  have present : ∀ {path id}, resolution.Position path id → resolution.store.Present id := by
    intro path id position
    cases position with
    | root member => exact listed id member
    | child above held => exact forest.present held
  have begins : resolution.Audited resolution :=
    ⟨.refl resolution, [], .of_fresh fresh policy empty⟩
  obtain ⟨justified, given, once⟩ := begins.afterAll acyclic present rounds
  refine ⟨⟨given, once⟩, ?_⟩
  intro id isGivenUp
  refine ⟨?_, ?_⟩
  · intro more
    have acyclicThere := justified.advances.store.acyclic acyclic
    have toMore := (stable_advances acyclicThere).afterAll (.refl _) more
    have acyclicMore := toMore.store.acyclic acyclicThere
    have still := toMore.store.isGivenUp_mono isGivenUp
    rw [afterAll_append, mem_deferred_pass_iff acyclicMore]
    exact ⟨not_passDefers_of_isGivenUp acyclicMore still,
      not_passDefers_of_isGivenUp acyclicMore still⟩
  · intro lists others
    obtain ⟨⟨_, report⟩, member, rfl⟩ := List.mem_map.mp ((once.givenUp id).mpr isGivenUp)
    exact (once.rejected member).2.not_passDefers (wellPlaced_of_forest forest lists)
      ((stable_advances acyclic).afterAll (.refl resolution) others)

/-- A variable whose type is a variable and whose value is a builtin type, one with the empty path
as its value, one with a path through a variable, and a cover of a type that is declared nowhere. -/
def spoilt : Resolution :=
  (ofModules
    ⟨#[⟨.variable { header := { name := ⟨1⟩ } }, ⟨0, 9⟩⟩,
      ⟨.typeRef { name := ⟨1⟩ }, ⟨22, 27⟩⟩,
      ⟨.nameRef { path := [⟨2⟩] }, ⟨30, 33⟩⟩,
      ⟨.variable { header := { name := ⟨3⟩ }, type := some ⟨1⟩, value := some ⟨2⟩ }, ⟨10, 33⟩⟩,
      ⟨.nameRef { path := [] }, ⟨46, 47⟩⟩,
      ⟨.variable { header := { name := ⟨4⟩ }, value := some ⟨4⟩ }, ⟨34, 47⟩⟩,
      ⟨.nameRef { path := [⟨1⟩, ⟨3⟩] }, ⟨59, 71⟩⟩,
      ⟨.variable { header := { name := ⟨5⟩ }, value := some ⟨6⟩ }, ⟨48, 71⟩⟩,
      ⟨.typeRef { name := ⟨6⟩ }, ⟨87, 91⟩⟩,
      ⟨.cover { header := { name := ⟨7⟩ }, fromType := some ⟨8⟩ }, ⟨72, 91⟩⟩,
      ⟨.module
        { name := ⟨8⟩
          declarations := [⟨0⟩, ⟨3⟩, ⟨5⟩, ⟨7⟩, ⟨9⟩]
          symbols := [(⟨1⟩, ⟨0⟩), (⟨3⟩, ⟨3⟩), (⟨4⟩, ⟨5⟩), (⟨5⟩, ⟨7⟩), (⟨7⟩, ⟨9⟩)] }, ⟨0, 91⟩⟩]⟩
    (.ofTexts ["width", "Int", "height", "depth", "mass", "Gone", "Age", "main"])
    [⟨10⟩]).withBudget ⟨2⟩

/-- Five passes make four reports on references. Each of the two runs reports what is left open. -/
theorem rejections_reported_once_spoilt :
    spoilt.store.Fresh ∧ spoilt.store.Forest ∧ spoilt.ListsModules ∧
    (∃ given, ReportsOnce spoilt (spoilt.afterAll [.run, .pass, .run]) given ∧ given.length = 4) ∧
    (spoilt.afterAll [.run, .pass, .run]).log.diagnostics.map Diagnostic.code =
      [.notAType, .notAValue, .notAValue, .notAType, .unresolvedReference, .unresolvedReference] ∧
    (spoilt.afterAll [.run, .pass, .run]).deferred = [⟨8⟩] ∧
    ∀ others, ¬ (spoilt.afterAll others).PassDefers ⟨6⟩ := by
  have fresh : spoilt.store.Fresh := by decide
  have forest : spoilt.store.Forest := Store.forest_of_earlier (by decide) (by decide)
  have lists : spoilt.ListsModules := by decide
  have inside : ∀ id ∈ spoilt.modules, id.index < spoilt.store.size := by decide
  obtain ⟨⟨given, once⟩, later⟩ := @rejections_reported_once spoilt fresh forest
    (fun id member => Store.present_iff.mpr (inside id member)) rfl rfl [.run, .pass, .run]
    (by decide)
  have count : ((spoilt.afterAll [.run, .pass, .run]).log.diagnostics.filter
      fun made => made.code.isRejection).length = 4 := by decide
  rw [once.rejections, List.length_map] at count
  exact ⟨fresh, forest, lists, ⟨given, once, count⟩, by decide, by decide,
    (later ⟨6⟩ (by decide)).2 lists⟩

end Resolution

end Declarations
