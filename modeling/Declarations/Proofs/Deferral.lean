import Declarations.Proofs.Pass
import Declarations.Proofs.Settled

/-!
# What is deferred

The backlog is a list with an index, and deferring a node looks at the index alone. Since the two
are in step, that comes to the same as searching the list: a node that is listed keeps its place and
its span, and any other goes to the end.

Within a pass nodes are deferred one after another and none is struck off. A walk defers something
exactly when it leaves its node open, so a pass is done exactly when it ends with nothing deferred.
-/

namespace Declarations

namespace Backlog

variable {backlog : Backlog} {id : NodeId} {position : Nat}

/-- The nodes that are listed, in order. -/
def nodes (backlog : Backlog) : List NodeId := backlog.toList.map Deferral.node

theorem position?_eq_some_iff : backlog.position? id = some position ↔
    backlog.nodes[position]? = some id := by
  rw [position?, backlog.inStep, nodes, List.getElem?_map, toList, Array.getElem?_toList]

theorem position?_eq_none_iff : backlog.position? id = none ↔ id ∉ backlog.nodes := by
  rw [Option.eq_none_iff_forall_ne_some, List.mem_iff_getElem?, not_exists]
  simp only [ne_eq, position?_eq_some_iff]

theorem nodes_nodup (backlog : Backlog) : backlog.nodes.Nodup := by
  apply List.pairwise_iff_getElem.mpr
  intro first second _ inside before same
  have atFirst : backlog.position? backlog.nodes[second] = some first :=
    position?_eq_some_iff.mpr (List.getElem?_eq_some_iff.mpr ⟨_, same⟩)
  have atSecond : backlog.position? backlog.nodes[second] = some second :=
    position?_eq_some_iff.mpr (List.getElem?_eq_getElem inside)
  rw [atFirst] at atSecond
  exact Nat.ne_of_lt before (Option.some.inj atSecond)

/-- Revising the deferral at the position of a node revises the deferral of the node. -/
theorem toList_revise (known : backlog.position? id = some position) (reason : String) :
    (backlog.revise position reason).toList = backlog.toList.map fun deferral =>
      if deferral.node = id then { deferral with reason := reason } else deferral := by
  have atPosition := position?_eq_some_iff.mp known
  rw [revise, toList, Array.toList_modify]
  apply List.ext_getElem?
  intro other
  rw [List.getElem?_modify, List.getElem?_map, toList]
  cases found : backlog.entries.toList[other]? with
  | none => rfl
  | some deferral =>
    have listed : backlog.nodes[other]? = some deferral.node := by
      rw [nodes, toList, List.getElem?_map, found, Option.map_some]
    rw [Option.map_eq_map, Option.map_some, Option.map_some]
    by_cases own : deferral.node = id
    · have same : position = other :=
        Option.some.inj (known.symm.trans (position?_eq_some_iff.mpr (own ▸ listed)))
      rw [if_pos own, if_pos same]
    · have different : position ≠ other := by
        rintro rfl
        exact own (Option.some.inj (listed.symm.trans atPosition))
      rw [if_neg own, if_neg different]

/-- What deferring a node through the index comes to. -/
theorem toList_defer (backlog : Backlog) (id : NodeId) (span : Span) (reason : String) :
    (backlog.defer id span reason).toList =
      if id ∈ backlog.nodes then
        backlog.toList.map fun deferral =>
          if deferral.node = id then { deferral with reason := reason } else deferral
      else backlog.toList ++ [⟨id, span, reason⟩] := by
  rw [defer]
  split
  next position known =>
    rw [if_pos (List.mem_of_getElem? (position?_eq_some_iff.mp known)), toList_revise known]
  next new =>
    rw [if_neg (position?_eq_none_iff.mp new)]
    exact Array.toList_push

end Backlog

namespace Resolution

/-- The nodes that are deferred, in the order in which they were. -/
def deferred (resolution : Resolution) : List NodeId := resolution.deferrals.map Deferral.node

theorem deferrals_defer (resolution : Resolution) (id : NodeId) (reason : String) :
    (resolution.defer id reason).deferrals =
      if id ∈ resolution.deferred then
        resolution.deferrals.map fun deferral =>
          if deferral.node = id then { deferral with reason := reason } else deferral
      else resolution.deferrals ++ [⟨id, resolution.store.span id, reason⟩] :=
  resolution.backlog.toList_defer id (resolution.store.span id) reason

/-- No node is deferred twice. -/
theorem deferred_nodup (resolution : Resolution) : resolution.deferred.Nodup :=
  resolution.backlog.nodes_nodup

theorem deferrals_nodup (resolution : Resolution) : resolution.deferrals.Nodup :=
  resolution.deferred_nodup.of_map

/-- A node that is deferred again keeps its place. -/
theorem deferred_defer (resolution : Resolution) (id : NodeId) (reason : String) :
    (resolution.defer id reason).deferred =
      if id ∈ resolution.deferred then resolution.deferred else resolution.deferred ++ [id] := by
  rw [deferred, deferrals_defer]
  split
  next =>
    rw [List.map_map, deferred]
    apply List.map_congr_left
    intro deferral _
    dsimp only [Function.comp]
    split <;> rfl
  next =>
    rw [List.map_append, deferred]
    rfl

theorem mem_deferred_defer (resolution : Resolution) (id : NodeId) (reason : String) :
    id ∈ (resolution.defer id reason).deferred := by
  rw [deferred_defer]
  split
  next known => exact known
  next => exact List.mem_append_right _ List.mem_cons_self

/-- What is deferred after a node was: the earlier deferrals, and one of the node with this reason,
which keeps the span of an earlier one. -/
theorem mem_deferrals_defer {resolution : Resolution} {id : NodeId} {reason : String}
    {deferral : Deferral} (member : deferral ∈ (resolution.defer id reason).deferrals) :
    deferral ∈ resolution.deferrals ∨
      (deferral.node = id ∧ deferral.reason = reason ∧
        (deferral.span = resolution.store.span id ∨
          ∃ earlier ∈ resolution.deferrals, earlier.node = id ∧ deferral.span = earlier.span)) := by
  rw [deferrals_defer] at member
  split at member
  · obtain ⟨earlier, known, rfl⟩ := List.mem_map.mp member
    by_cases own : earlier.node = id
    · rw [if_pos own]
      exact Or.inr ⟨own, rfl, Or.inr ⟨earlier, known, own, rfl⟩⟩
    · rw [if_neg own]
      exact Or.inl known
  · rcases List.mem_append.mp member with known | new
    · exact Or.inl known
    · cases List.mem_singleton.mp new
      exact Or.inr ⟨rfl, rfl, Or.inl rfl⟩

/-- One state of a pass comes after another. -/
structure Continues (first second : Resolution) : Prop where
  advances : first.Advances second
  deferred : first.deferred <+: second.deferred

namespace Continues

variable {first second third : Resolution}

theorem refl (resolution : Resolution) : resolution.Continues resolution :=
  ⟨.refl resolution, List.prefix_rfl⟩

theorem trans (continues : first.Continues second) (next : second.Continues third) :
    first.Continues third :=
  ⟨continues.advances.trans next.advances, continues.deferred.trans next.deferred⟩

end Continues

variable {levels : Nat} {path : Path} {id : NodeId} {start final : Resolution}
  {progress : Progress}

/-- Of the steps of a walk only deferring a node changes what is deferred. -/
theorem Walks.continues (walked : Walks levels path id start progress final) :
    start.Continues final := by
  refine ⟨walked.advances, walked.invariant (fun current => start.deferred <+: current.deferred)
    (fun _ _ => True) (fun _ _ _ _ _ _ => trivial) ?_ ?_ ?_ ?_ ?_ trivial List.prefix_rfl⟩
  · intro path id current _ before _
    exact before
  · intro path id current content bound _ before _ _ _ _
    exact before
  · intro path id current content reason _ before _ _ _ _
    rw [deferred_defer]
    split
    · exact before
    · exact before.trans (List.prefix_append _ _)
  · intro path id current content report _ before _ _ _ _
    exact before
  · intro path id current content _ before _ _ _ _
    exact before

theorem VisitsAll.backlog_eq {visits : NodeId → Visit} {ids : List NodeId}
    (each : ∀ id start progress final, visits id start progress final → progress = .done →
      final.backlog = start.backlog)
    (visited : VisitsAll visits ids start .done final) : final.backlog = start.backlog := by
  have sequence := visited.allDone rfl
  exact sequence.invariant (fun current => current.backlog = start.backlog)
    (fun id _ before own after ⟨visit, isDone⟩ same =>
      (each id before own after visit isDone).trans same) rfl

theorem VisitsAll.deferred_ne_nil {visits : NodeId → Visit} {ids : List NodeId}
    (each : ∀ id start progress final, visits id start progress final →
      start.Continues final ∧ (progress = .pending → final.deferred ≠ []))
    (visited : VisitsAll visits ids start .pending final) : final.deferred ≠ [] := by
  have bounded := visited.between Continues Continues.refl Continues.trans
    fun id _ start progress final visit => (each id start progress final visit).1
  obtain ⟨child, -, before, after, visit, -, toFinal⟩ := bounded.exists_pending
  have nonempty := (each child before .pending after visit).2 rfl
  intro empty
  have none : after.deferred <+: [] := empty ▸ toFinal.deferred
  exact nonempty (List.prefix_nil.mp none)

/-- A walk that is done defers nothing. -/
theorem Walks.backlog_eq (walked : Walks levels path id start progress final)
    (isDone : progress = .done) : final.backlog = start.backlog := by
  induction walked using Walks.induction with
  | missing | marked | bind | reject => rfl
  | wait | stop => cases isDone
  | @finish levels path id start final content found notReference isOpen _ stages =>
    have below := stages.flatten.backlog_eq fun _ _ _ _ ⟨_, same⟩ => same
    exact below

/-- A walk that leaves its node open defers something. -/
theorem Walks.deferred_ne_nil (walked : Walks levels path id start progress final)
    (isPending : progress = .pending) : final.deferred ≠ [] := by
  induction walked using Walks.induction with
  | missing | marked | bind | reject | finish => cases isPending
  | wait => exact List.ne_nil_of_mem (mem_deferred_defer _ _ _)
  | @stop levels path id start final content found notReference isOpen _ stages =>
    obtain ⟨before, stage, after, middle, split, -, pending⟩ := stages.exists_pending
    exact pending.deferred_ne_nil fun _ _ _ _ ⟨walked, nonempty⟩ => ⟨walked.continues, nonempty⟩

variable {resolution : Resolution}

theorem pass_backlog_eq_empty (acyclic : resolution.store.Acyclic)
    (isDone : resolution.pass.1 = .done) : resolution.pass.2.backlog = .empty := by
  have visits := pass_visits acyclic
  rw [isDone] at visits
  exact visits.backlog_eq fun _ _ _ _ walked => walked.backlog_eq

theorem pass_deferrals_eq_nil (acyclic : resolution.store.Acyclic)
    (isDone : resolution.pass.1 = .done) : resolution.pass.2.deferrals = [] := by
  rw [deferrals, pass_backlog_eq_empty acyclic isDone]
  rfl

theorem pass_deferred_ne_nil (acyclic : resolution.store.Acyclic)
    (isPending : resolution.pass.1 = .pending) : resolution.pass.2.deferred ≠ [] := by
  have visits := pass_visits acyclic
  rw [isPending] at visits
  exact visits.deferred_ne_nil fun _ _ _ _ walked => ⟨walked.continues, walked.deferred_ne_nil⟩

end Resolution

end Declarations
