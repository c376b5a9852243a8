import Declarations.Proofs.Calls
import Declarations.Proofs.Locality
import Declarations.Proofs.Reports

/-!
# What is pending

A walk asks to defer a reference each time it comes by one that has to wait. `passRequests` lists
these requests in the order in which a pass makes them, and the pending list is a summary of them:
each node once, in the order of the first requests, with the reason of the latest. A pass says that
something is pending exactly if there was a request, and a run that ends so reports the summary and
nothing else.
-/

namespace Declarations

/-- A walk asks to defer a node. -/
structure Request where
  node : NodeId
  reason : String
  deriving DecidableEq, Repr

/-- The reason that was given last for a node. -/
def Request.latestReason? (requests : List Request) (id : NodeId) : Option String :=
  (requests.reverse.find? fun request => request.node == id).map Request.reason

namespace Resolution

/-- What the visits of a list ask for, in order. -/
def requestsAll (visit : NodeId → Resolution → Option (Progress × Resolution))
    (requests : NodeId → Resolution → List Request) : List NodeId → Resolution → List Request
  | [], _ => []
  | id :: rest, resolution =>
    requests id resolution ++
      match visit id resolution with
      | some (_, next) => requestsAll visit requests rest next
      | none => []

/-- What the visits of stages ask for, up to the first stage that leaves something open. -/
def requestsStages (visit : NodeId → Resolution → Option (Progress × Resolution))
    (requests : NodeId → Resolution → List Request) :
    List (List NodeId) → Resolution → List Request
  | [], _ => []
  | stage :: rest, resolution =>
    requestsAll visit requests stage resolution ++
      match resolveAll visit stage resolution with
      | some (.done, next) => requestsStages visit requests rest next
      | _ => []

/-- What the walk of a node asks for: a request for each reference that has to wait. -/
def requestsWithin : Nat → Path → NodeId → Resolution → List Request
  | 0, _, _, _ => []
  | levels + 1, path, id, resolution =>
    match resolution.store.content? id with
    | none => []
    | some content =>
      if content.isMarked then []
      else if content.isReference then
        match resolution.judge (path.push id) id content with
        | .wait reason => [⟨id, reason⟩]
        | _ => []
      else
        requestsStages (resolveWithin levels (path.push id)) (requestsWithin levels (path.push id))
          content.stages resolution

/-- What the walks of a list of modules ask for. -/
def requestsOfModules : List NodeId → Resolution → List Request
  | [], _ => []
  | id :: rest, resolution =>
    requestsWithin (resolution.store.size + 1) .empty id resolution ++
      requestsOfModules rest (resolution.resolve .empty id).2

/-- What a pass asks for. -/
def passRequests (resolution : Resolution) : List Request :=
  requestsOfModules resolution.modules resolution.opening

/-- The pending list is a summary of requests. -/
structure Summarises (resolution : Resolution) (requests : List Request) : Prop where
  order : resolution.deferred = (requests.map Request.node).eraseDups
  span : ∀ deferral ∈ resolution.deferrals,
    deferral.span = resolution.store.span deferral.node
  reason : ∀ deferral ∈ resolution.deferrals,
    Request.latestReason? requests deferral.node = some deferral.reason

end Resolution

theorem Request.latestReason?_concat (requests : List Request) (request : Request) (id : NodeId) :
    latestReason? (requests ++ [request]) id =
      if request.node = id then some request.reason else latestReason? requests id := by
  rw [latestReason?, List.reverse_append, List.reverse_singleton, List.singleton_append]
  by_cases own : request.node = id
  · simp [own]
  · have differs : (request.node == id) = false := by simpa using own
    simp [own, differs, latestReason?]

theorem eraseDups_concat (ids : List NodeId) (id : NodeId) :
    (ids ++ [id]).eraseDups = if id ∈ ids then ids.eraseDups else ids.eraseDups ++ [id] := by
  rw [List.eraseDups_append]
  by_cases member : id ∈ ids
  · simp [member, List.removeAll]
  · simp [member, List.removeAll, List.eraseDups_cons]

namespace Resolution

variable {levels : Nat} {path : Path} {id : NodeId} {start final : Resolution}
  {progress : Progress} {content : Content} {requests : List Request}

/-! ## The pending list summarises the requests -/

/-- A node that was just deferred has the reason that was given. -/
theorem reason_of_mem_defer {resolution : Resolution} {reason : String} {deferral : Deferral}
    (member : deferral ∈ (resolution.defer id reason).deferrals) (own : deferral.node = id) :
    deferral.reason = reason := by
  rw [deferrals_defer] at member
  split at member
  next =>
    obtain ⟨earlier, -, rfl⟩ := List.mem_map.mp member
    by_cases same : earlier.node = id
    · rw [if_pos same]
    · rw [if_neg same] at own
      exact absurd own same
  next unknown =>
    rcases List.mem_append.mp member with known | new
    · exact absurd (own ▸ List.mem_map_of_mem known) unknown
    · cases List.mem_singleton.mp new
      rfl

namespace Summarises

/-- A step that leaves the pending list and the spans as they are keeps the summary. -/
theorem neutral (summarises : start.Summarises requests)
    (deferrals : final.deferrals = start.deferrals)
    (spans : ∀ id, final.store.span id = start.store.span id) : final.Summarises requests where
  order := by
    rw [deferred, deferrals]
    exact summarises.order
  span := by
    intro deferral member
    rw [deferrals] at member
    rw [spans]
    exact summarises.span deferral member
  reason := by
    rw [deferrals]
    exact summarises.reason

/-- Deferring a node enters its request. -/
theorem defer (summarises : start.Summarises requests) (id : NodeId) (reason : String) :
    (start.defer id reason).Summarises (requests ++ [⟨id, reason⟩]) where
  order := by
    have known : id ∈ start.deferred ↔ id ∈ requests.map Request.node := by
      rw [summarises.order, List.mem_eraseDups]
    rw [deferred_defer, List.map_append, List.map_singleton, eraseDups_concat, summarises.order]
    by_cases member : id ∈ requests.map Request.node
    · rw [if_pos member, if_pos (summarises.order ▸ known.mpr member)]
    · rw [if_neg member, if_neg fun held => member (known.mp (summarises.order ▸ held))]
  span := by
    intro deferral member
    change deferral.span = start.store.span deferral.node
    rcases mem_deferrals_defer member with old | ⟨own, -, new | ⟨earlier, known, same, span⟩⟩
    · exact summarises.span deferral old
    · rw [own, new]
    · rw [span, own, ← same]
      exact summarises.span earlier known
  reason := by
    intro deferral member
    rw [Request.latestReason?_concat]
    by_cases own : deferral.node = id
    · rw [if_pos own.symm, reason_of_mem_defer member own]
    · rw [if_neg fun same => own same.symm]
      rcases mem_deferrals_defer member with old | ⟨same, -⟩
      · exact summarises.reason deferral old
      · exact absurd same own

end Summarises

/-- Visits that enter what they ask for make a list that does. -/
theorem VisitsAll.summarises {visit : NodeId → Resolution → Option (Progress × Resolution)}
    {asks : NodeId → Resolution → List Request} {ids : List NodeId}
    (visited : VisitsAll (fun id start progress final =>
      visit id start = some (progress, final) ∧
        ∀ requests, start.Summarises requests → final.Summarises (requests ++ asks id start))
      ids start progress final)
    (summarises : start.Summarises requests) :
    final.Summarises (requests ++ requestsAll visit asks ids start) := by
  induction visited generalizing requests with
  | nil =>
    rw [requestsAll, List.append_nil]
    exact summarises
  | @cons id rest start middle final first others head tail ih =>
    obtain ⟨visited, enters⟩ := head
    rw [requestsAll, visited, ← List.append_assoc]
    exact ih (enters requests summarises)

/-- So do stages. -/
theorem VisitsStages.summarises {visit : NodeId → Resolution → Option (Progress × Resolution)}
    {asks : NodeId → Resolution → List Request} {stages : List (List NodeId)}
    (visited : VisitsStages (fun id start progress final =>
      visit id start = some (progress, final) ∧
        ∀ requests, start.Summarises requests → final.Summarises (requests ++ asks id start))
      stages start progress final)
    (summarises : start.Summarises requests) :
    final.Summarises (requests ++ requestsStages visit asks stages start) := by
  induction visited generalizing requests with
  | nil =>
    rw [requestsStages, List.append_nil]
    exact summarises
  | @done stage rest start middle final progress head _ ih =>
    have resolved := resolveAll_of_visitsAll (head.imp fun _ _ _ _ _ visit => visit.1)
    rw [requestsStages, resolved, ← List.append_assoc]
    exact ih (head.summarises summarises)
  | @pending stage rest start final head =>
    have resolved := resolveAll_of_visitsAll (head.imp fun _ _ _ _ _ visit => visit.1)
    rw [requestsStages, resolved, List.append_nil]
    exact head.summarises summarises

theorem requestsWithin_reference (found : start.store.content? id = some content)
    (isReference : content.isReference = true) (isOpen : content.isMarked = false) :
    requestsWithin (levels + 1) path id start =
      match start.judge (path.push id) id content with
      | .wait reason => [⟨id, reason⟩]
      | _ => [] := by
  simp [requestsWithin, found, isReference, isOpen]

theorem requestsWithin_entered (found : start.store.content? id = some content)
    (notReference : content.isReference = false) (isOpen : content.isMarked = false) :
    requestsWithin (levels + 1) path id start =
      requestsStages (resolveWithin levels (path.push id)) (requestsWithin levels (path.push id))
        content.stages start := by
  simp [requestsWithin, found, notReference, isOpen]

/-- A walk enters what it asks for. -/
theorem Walks.summarises (walked : Walks levels path id start progress final)
    (requests : List Request) (summarises : start.Summarises requests) :
    final.Summarises (requests ++ requestsWithin levels path id start) := by
  induction walked using Walks.induction generalizing requests with
  | missing found =>
    rw [requestsWithin, found, List.append_nil]
    exact summarises.neutral rfl fun _ => rfl
  | marked found isMarked =>
    rw [requestsWithin, found]
    simp only [isMarked, if_pos, List.append_nil]
    exact summarises
  | @bind levels path id start content bound found isReference isOpen judged =>
    rw [requestsWithin_reference found isReference isOpen, judged, List.append_nil]
    exact summarises.neutral rfl fun other => Store.span_modify _ _ _ _
  | @wait levels path id start content reason found isReference isOpen judged =>
    rw [requestsWithin_reference found isReference isOpen, judged]
    exact summarises.defer id reason
  | @reject levels path id start content report found isReference isOpen judged =>
    rw [requestsWithin_reference found isReference isOpen, judged, List.append_nil]
    exact summarises.neutral rfl fun other => Store.span_modify _ _ _ _
  | @finish levels path id start final content found notReference isOpen _ stages =>
    rw [requestsWithin_entered found notReference isOpen]
    have below := VisitsStages.summarises (stages.imp fun _ _ _ _ _ ⟨walked, enters⟩ =>
      ⟨walked, enters⟩) summarises
    exact below.neutral rfl fun other => Store.span_modify _ _ _ _
  | @stop levels path id start final content found notReference isOpen _ stages =>
    rw [requestsWithin_entered found notReference isOpen]
    exact VisitsStages.summarises (stages.imp fun _ _ _ _ _ ⟨walked, enters⟩ =>
      ⟨walked, enters⟩) summarises

theorem resolveModules_summarises {base : Store} (acyclic : base.Acyclic) (ids : List NodeId)
    (since : base.Advances start.store) (summarises : start.Summarises requests) :
    (resolveModules ids start).2.Summarises (requests ++ requestsOfModules ids start) := by
  induction ids generalizing start requests with
  | nil =>
    rw [requestsOfModules, List.append_nil]
    exact summarises
  | cons id rest ih =>
    have walked := walks_resolve (since.acyclic acyclic) (.refl _) .empty id
    rw [requestsOfModules, ← List.append_assoc]
    exact ih (since.trans walked.advances.store) (walked.summarises requests summarises)

/-- The pending list of a pass summarises what the pass asked for. -/
theorem pass_summarises {resolution : Resolution} (acyclic : resolution.store.Acyclic) :
    resolution.pass.2.Summarises resolution.passRequests := by
  have nothing : resolution.opening.Summarises [] :=
    ⟨rfl, List.forall_mem_nil _, List.forall_mem_nil _⟩
  exact resolveModules_summarises acyclic resolution.modules
    (advances_opening resolution).store nothing

/-! ## Passes -/

/-- Only references are deferred. -/
theorem pass_defers_references {resolution : Resolution} (acyclic : resolution.store.Acyclic) :
    ∀ id ∈ resolution.pass.2.deferred, resolution.store.Refers id := by
  have kept := (pass_visits acyclic).invariant (fun current => resolution.Advances current ∧
    ∀ id ∈ current.deferred, resolution.store.Refers id) ?_
    ⟨advances_opening resolution, List.forall_mem_nil _⟩
  · exact kept.2
  · intro id _ start progress final walked holds
    refine ⟨holds.1.trans walked.advances, ?_⟩
    intro node member
    rcases walked.staysWithin.deferred member with old | ⟨-, refers⟩
    · exact holds.2 node old
    · exact holds.1.store.refers_iff.mp refers

/-- The pending list that a pass leaves is exact. -/
structure PendingExact (resolution : Resolution) : Prop where
  /-- Something is pending exactly if the list is not empty. -/
  pending_iff : resolution.pass.1 = .pending ↔ resolution.pass.2.deferrals ≠ []
  /-- No node is listed twice. -/
  nodup : resolution.pass.2.deferred.Nodup
  /-- The nodes are listed in the order in which they were first deferred. -/
  order : resolution.pass.2.deferred = (resolution.passRequests.map Request.node).eraseDups
  /-- Each node is listed with its span. -/
  span : ∀ deferral ∈ resolution.pass.2.deferrals,
    deferral.span = resolution.store.span deferral.node
  /-- Each node is listed with the latest reason. -/
  reason : ∀ deferral ∈ resolution.pass.2.deferrals,
    Request.latestReason? resolution.passRequests deferral.node = some deferral.reason
  /-- Each node is a reference. -/
  refers : ∀ id ∈ resolution.pass.2.deferred, resolution.store.Refers id
  /-- Each node is open, if the pass comes by no node twice. -/
  isOpen : resolution.VisitsOnce →
    ∀ id ∈ resolution.pass.2.deferred, resolution.pass.2.store.IsOpen id

variable {resolution : Resolution}

theorem pendingExact (acyclic : resolution.store.Acyclic) : resolution.PendingExact := by
  have summarises := pass_summarises acyclic
  have advances := pass_advances acyclic
  refine ⟨⟨?_, ?_⟩, deferred_nodup _, summarises.order, ?_, summarises.reason,
    pass_defers_references acyclic, pass_defersOpen⟩
  · intro isPending empty
    refine pass_deferred_ne_nil acyclic isPending ?_
    rw [deferred, empty, List.map_nil]
  · intro nonempty
    cases progress : resolution.pass.1 with
    | pending => rfl
    | done => exact absurd (pass_deferrals_eq_nil acyclic progress) nonempty
  · intro deferral member
    rw [summarises.span deferral member, advances.store.span]

/-! ## Runs -/

/-- What a run reports if something is pending after its last pass, which began in this state. -/
structure ReportsPending (resolution last : Resolution) : Prop where
  /-- The list is that of the last pass. -/
  deferrals : resolution.run.2.deferrals = last.pass.2.deferrals
  /-- One error for each node of the list is put at the end of the log, and nothing else. -/
  diagnostics : resolution.run.2.log.diagnostics =
    last.pass.2.log.diagnostics ++ last.pass.2.deferrals.map fun deferral =>
      .unresolvedReference deferral.span deferral.reason
  /-- The report is no failure. -/
  failed : resolution.run.2.failed = last.pass.2.failed
  /-- Without a failure the run names the nodes of the list. -/
  status : resolution.run.2.failed = false →
    resolution.run.1.status = .unresolved last.pass.2.deferred

/-- A run reports what its last pass left open. -/
theorem reportsPending {last : Resolution} (passes : resolution.passesOfRun = last.pass)
    (isPending : last.pass.1 = .pending) (nonempty : last.pass.2.deferrals ≠ []) :
    resolution.ReportsPending last := by
  have split : resolution.passesOfRun = (.pending, last.pass.2) := by
    rw [passes, ← isPending]
  have concluded : last.pass.2.conclude .pending =
      { last.pass.2 with
        log := last.pass.2.deferrals.foldl
          (fun log deferral =>
            (log.forceError (.unresolvedReference deferral.span deferral.reason)).2)
          last.pass.2.log } := by
    rw [conclude, reportOpen, if_neg]
    simpa using nonempty
  have ended := run_eq split
  rw [concluded] at ended
  refine ⟨?_, ?_, ?_, ?_⟩
  · rw [ended]
    rfl
  · rw [ended]
    exact Log.diagnostics_foldl_forceError _ _ _
  · rw [ended]
  · intro unfailed
    rw [ended] at unfailed ⊢
    dsimp only at unfailed
    simp only [status, unfailed]
    rfl

/-- The last pass of a run comes after some number of passes. -/
theorem exists_afterPasses (resolution : Resolution) :
    ∃ earlier, resolution.passesOfRun = (resolution.afterPasses earlier).pass := by
  have again : ∀ current, (∃ earlier, current = resolution.afterPasses earlier) →
      ∃ earlier, current.pass.2 = resolution.afterPasses earlier := by
    rintro current ⟨earlier, rfl⟩
    exact ⟨earlier + 1, (afterPasses_succ resolution earlier).symm⟩
  obtain ⟨before, ⟨earlier, reached⟩, last⟩ := exists_last_pass resolution
    (fun current => ∃ earlier, current = resolution.afterPasses earlier)
    (again _) ⟨0, rfl⟩
  exact ⟨earlier, by rw [last, reached]⟩

theorem passes_afterPasses (acyclic : resolution.store.Acyclic) (count : Nat) :
    (resolution.afterPasses count).passes = resolution.passes + count := by
  induction count with
  | zero => rfl
  | succ count ih =>
    have advances := advances_afterPasses acyclic count
    rw [afterPasses_succ, pass_passes (advances.store.acyclic acyclic), ih, Nat.add_assoc]

theorem passes_conclude (resolution : Resolution) (progress : Progress) :
    (resolution.conclude progress).passes = resolution.passes := by
  cases progress with
  | done => rfl
  | pending =>
    rw [conclude, reportOpen]
    split <;> rfl

/-- The pending list is exact after every pass, and a run whose last pass leaves something open
reports exactly what that pass left. If no node is come by twice in a pass, all of it is open. -/
theorem pending_exact (acyclic : resolution.store.Acyclic) :
    resolution.PendingExact ∧
    ∃ earlier last, last = resolution.afterPasses earlier ∧
      resolution.run.1.passes = resolution.passes + earlier + 1 ∧
      last.PendingExact ∧ resolution.run.2.store = last.pass.2.store ∧
      (last.pass.1 = .done → resolution.run.2 = last.pass.2) ∧
      (last.pass.1 = .pending → resolution.ReportsPending last ∧
        (resolution.VisitsOnce →
          ∀ id ∈ resolution.run.2.deferred, resolution.run.2.store.IsOpen id)) := by
  obtain ⟨earlier, passes⟩ := exists_afterPasses resolution
  have counted := passes_afterPasses acyclic earlier
  have advances := advances_afterPasses acyclic earlier
  refine ⟨pendingExact acyclic, earlier, _, rfl, ?_⟩
  generalize resolution.afterPasses earlier = last at passes counted advances ⊢
  have acyclicLast := advances.store.acyclic acyclic
  have lastExact : last.PendingExact := pendingExact acyclicLast
  have stored : resolution.run.2.store = last.pass.2.store := by rw [run_store, passes]
  refine ⟨?_, lastExact, stored, ?_, ?_⟩
  · have split : resolution.passesOfRun = (last.pass.1, last.pass.2) := passes
    rw [run_eq split]
    dsimp only
    rw [passes_conclude, pass_passes acyclicLast, counted]
  · intro isDone
    have split : resolution.passesOfRun = (.done, last.pass.2) := by rw [passes, ← isDone]
    rw [run_eq split]
    rfl
  · intro isPending
    have reports := reportsPending passes isPending (lastExact.pending_iff.mp isPending)
    refine ⟨reports, ?_⟩
    intro once id member
    rw [deferred, reports.deferrals] at member
    rw [stored]
    exact lastExact.isOpen (advances.visitsOnce once) id member

/-- Two modules, each with a cover of a type that is declared nowhere, at the same place, after a
run. The log takes no further error and none twice, and it holds all that is to be reported again.
What the run left open is still in the backlog. -/
def alreadyReported : Resolution :=
  (((ofModules
      ⟨#[⟨.typeRef { name := ⟨2⟩ }, ⟨10, 14⟩⟩,
        ⟨.cover { header := { name := ⟨1⟩ }, fromType := some ⟨0⟩ }, ⟨0, 14⟩⟩,
        ⟨.module { name := ⟨3⟩, declarations := [⟨1⟩], symbols := [(⟨1⟩, ⟨1⟩)] }, ⟨0, 14⟩⟩,
        ⟨.typeRef { name := ⟨2⟩ }, ⟨10, 14⟩⟩,
        ⟨.cover { header := { name := ⟨1⟩ }, fromType := some ⟨3⟩ }, ⟨0, 14⟩⟩,
        ⟨.module { name := ⟨4⟩, declarations := [⟨4⟩], symbols := [(⟨1⟩, ⟨4⟩)] }, ⟨0, 14⟩⟩]⟩
      (.ofTexts ["Age", "Gone", "first", "second"]) [⟨2⟩, ⟨5⟩]).withBudget ⟨2⟩).withLog
    (.ofPolicy { errorLimit := 1, deduplicate := true })).run.2

theorem pending_exact_alreadyReported :
    alreadyReported.PendingExact ∧ alreadyReported.log.limitReached = true ∧
    alreadyReported.run.1.status = .unresolved [⟨0⟩, ⟨3⟩] ∧
    alreadyReported.run.2.log.size = alreadyReported.log.size + 2 ∧
    ∀ id ∈ alreadyReported.run.2.deferred, alreadyReported.run.2.store.IsOpen id := by
  have tree : alreadyReported.store.HoldsOnce :=
    Store.holdsOnce_of_earlier (by decide) (by decide) (by decide)
  have once : alreadyReported.VisitsOnce := by
    refine ⟨tree, by decide, ?_⟩
    intro id other _ listed below
    obtain ⟨parent, -, held⟩ := Relation.TransGen.tail'_iff.mp below
    have unheld : ∀ module ∈ alreadyReported.modules, ∀ parent < alreadyReported.store.size,
        module ∉ alreadyReported.store.children ⟨parent⟩ := by decide
    exact unheld other listed parent.index (Store.present_iff.mp held.present) held
  obtain ⟨passExact, earlier, last, -, -, lastExact, -, done, pending⟩ :=
    pending_exact tree.acyclic
  refine ⟨passExact, by decide, by decide, by decide, ?_⟩
  cases progress : last.pass.1 with
  | pending => exact (pending progress).2 once
  | done =>
    -- nothing would be left
    have same := done progress
    have empty : last.pass.2.deferrals = [] := by
      by_contra nonempty
      rw [lastExact.pending_iff.mpr nonempty] at progress
      cases progress
    rw [deferred, same, empty]
    exact List.forall_mem_nil _

/-- One module that is listed twice. Its first cover names the second; the first walk defers the
reference, and the second walk binds it in the same pass. -/
def listedTwice : Resolution :=
  (ofModules
    ⟨#[⟨.typeRef { name := ⟨2⟩ }, ⟨10, 15⟩⟩,
      ⟨.cover { header := { name := ⟨1⟩ }, fromType := some ⟨0⟩ }, ⟨0, 15⟩⟩,
      ⟨.cover { header := { name := ⟨2⟩ } }, ⟨16, 27⟩⟩,
      ⟨.module
        { name := ⟨3⟩, declarations := [⟨1⟩, ⟨2⟩], symbols := [(⟨1⟩, ⟨1⟩), (⟨2⟩, ⟨2⟩)] }, ⟨0, 27⟩⟩]⟩
    (.ofTexts ["Age", "Count", "main"]) [⟨3⟩, ⟨3⟩]).withBudget ⟨1⟩

/-- Where a pass comes by a node twice, what a run names as unresolved may be bound. -/
theorem not_isOpen_listedTwice :
    listedTwice.store.Forest ∧ listedTwice.run.1.status = .unresolved [⟨0⟩] ∧
      (∃ reference, listedTwice.run.2.store.typeRef? ⟨0⟩ = some reference ∧
        reference.target = some (.decl ⟨2⟩)) ∧ ¬ listedTwice.run.2.store.IsOpen ⟨0⟩ := by
  have bound : listedTwice.run.2.store.typeRef? ⟨0⟩ =
      some { name := ⟨2⟩, target := some (.decl ⟨2⟩) } := by decide
  refine ⟨Store.forest_of_earlier (by decide) (by decide), by decide, ⟨_, bound, rfl⟩, ?_⟩
  rintro (⟨reference, found, unbound, -⟩ | ⟨reference, found, -⟩)
  · rw [bound] at found
    cases found
    cases unbound
  · have other : listedTwice.run.2.store.nameRef? ⟨0⟩ = none := by decide
    rw [other] at found
    cases found

end Resolution

end Declarations
