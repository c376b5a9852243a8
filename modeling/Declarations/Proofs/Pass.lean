import Declarations.Proofs.Forest
import Declarations.Proofs.Walk

/-!
# Passes as sequences of walks

Where no node is below itself, the levels that a pass allows a walk are always enough: a walk ends,
and a pass is the walks of the listed modules, one after another.
-/

namespace Declarations.Resolution

variable {base : Store} {start final : Resolution} {progress : Progress}

/-- Visits that never fail to end make a sequence that ends. -/
theorem VisitsAll.exists_of {visits : NodeId → Visit} {ids : List NodeId} (Inv : Resolution → Prop)
    (total : ∀ id ∈ ids, ∀ start, Inv start →
      ∃ progress final, visits id start progress final ∧ Inv final)
    (holds : Inv start) :
    ∃ progress final, VisitsAll visits ids start progress final ∧ Inv final := by
  induction ids generalizing start with
  | nil => exact ⟨.done, start, .nil, holds⟩
  | cons id rest ih =>
    obtain ⟨first, middle, head, holdsMiddle⟩ := total id List.mem_cons_self start holds
    have totalRest := fun other member => total other (List.mem_cons_of_mem id member)
    obtain ⟨others, final, tail, holdsFinal⟩ := ih totalRest holdsMiddle
    exact ⟨first.and others, final, .cons head tail, holdsFinal⟩

theorem VisitsStages.exists_of {visits : NodeId → Visit} {stages : List (List NodeId)}
    (Inv : Resolution → Prop)
    (total : ∀ id ∈ stages.flatten, ∀ start, Inv start →
      ∃ progress final, visits id start progress final ∧ Inv final)
    (holds : Inv start) : ∃ progress final, VisitsStages visits stages start progress final := by
  induction stages generalizing start with
  | nil => exact ⟨.done, start, .nil⟩
  | cons stage rest ih =>
    rw [List.flatten_cons] at total
    obtain ⟨first, middle, head, holdsMiddle⟩ := VisitsAll.exists_of Inv
      (fun id member => total id (List.mem_append_left _ member)) holds
    cases first with
    | pending => exact ⟨.pending, middle, .pending head⟩
    | done =>
      have totalRest := fun id member => total id (List.mem_append_right stage member)
      obtain ⟨progress, final, tail⟩ := ih totalRest holdsMiddle
      exact ⟨progress, final, .done head tail⟩

/-- A walk ends when it may go deeper than its node has nodes below it. -/
theorem exists_walk (acyclic : base.Acyclic) {levels : Nat} {path : Path} {id : NodeId}
    (since : base.Advances start.store) (enough : base.rank id < levels) :
    ∃ progress final, Walks levels path id start progress final := by
  induction levels generalizing path id start with
  | zero => omega
  | succ levels ih =>
    cases found : start.store.content? id with
    | none => exact ⟨_, _, .missing found⟩
    | some content =>
      cases isMarked : content.isMarked with
      | true => exact ⟨_, _, .marked found isMarked⟩
      | false =>
        cases isReference : content.isReference with
        | true =>
          cases judged : start.judge (path.push id) id content with
          | bind bound => exact ⟨_, _, .bind found isReference isMarked judged⟩
          | wait reason => exact ⟨_, _, .wait found isReference isMarked judged⟩
          | reject report => exact ⟨_, _, .reject found isReference isMarked judged⟩
        | false =>
          have total : ∀ child ∈ content.stages.flatten, ∀ other : Resolution,
              base.Advances other.store →
              ∃ progress final, Walks levels (path.push id) child other progress final ∧
                base.Advances final.store := by
            intro child member other reached
            have held : base.Holds id child :=
              since.holds_iff.mp (Store.holds_iff.mpr ⟨content, found, member⟩)
            have lower : base.rank child < levels :=
              Nat.lt_of_lt_of_le (acyclic.rank_lt held) (Nat.le_of_lt_succ enough)
            obtain ⟨progress, final, walked⟩ := ih reached lower
            exact ⟨progress, final, walked, reached.trans walked.advances.store⟩
          obtain ⟨progress, final, stages⟩ :=
            VisitsStages.exists_of (fun other => base.Advances other.store) total since
          cases progress with
          | done => exact ⟨_, _, .finish found isReference isMarked stages⟩
          | pending => exact ⟨_, _, .stop found isReference isMarked stages⟩

theorem resolve_eq_of_walks {path : Path} {id : NodeId}
    (walked : Walks (start.store.size + 1) path id start progress final) :
    start.resolve path id = (progress, final) := by
  rw [resolve, show resolveWithin _ path id start = some (progress, final) from walked]
  rfl

/-- The levels that `resolve` allows are enough. -/
theorem walks_resolve (acyclic : base.Acyclic) (since : base.Advances start.store) (path : Path)
    (id : NodeId) :
    Walks (base.size + 1) path id start (start.resolve path id).1 (start.resolve path id).2 := by
  have enough : base.rank id < base.size + 1 := Nat.lt_succ_of_le (base.rank_le_size id)
  obtain ⟨progress, final, walked⟩ := exists_walk acyclic since enough
  have resolved : start.resolve path id = (progress, final) := by
    rw [← since.size_eq] at walked
    exact resolve_eq_of_walks walked
  rw [resolved]
  exact walked

theorem visitsAll_resolveModules (acyclic : base.Acyclic) (ids : List NodeId)
    (since : base.Advances start.store) :
    VisitsAll (Walks (base.size + 1) .empty) ids start (resolveModules ids start).1
      (resolveModules ids start).2 := by
  induction ids generalizing start with
  | nil => exact .nil
  | cons id rest ih =>
    have head := walks_resolve acyclic since .empty id
    exact .cons head (ih (since.trans head.advances.store))

theorem resolveModules_eq_of_visitsAll {ids : List NodeId}
    (visited : VisitsAll (Walks (base.size + 1) .empty) ids start progress final)
    (since : base.Advances start.store) : resolveModules ids start = (progress, final) := by
  induction visited with
  | nil => rfl
  | cons head tail ih =>
    have rest := ih (since.trans head.advances.store)
    rw [← since.size_eq] at head
    simp only [resolveModules, resolve_eq_of_walks head, rest]

/-- The state in which a pass begins: the pass is counted, and nothing is deferred yet. -/
def opening (resolution : Resolution) : Resolution :=
  { resolution with passes := resolution.passes + 1, backlog := .empty }

theorem advances_opening (resolution : Resolution) : resolution.Advances resolution.opening where
  store := .refl _
  names := rfl
  modules := rfl
  importable := rfl
  failed holds := holds

theorem pass_visits {resolution : Resolution} (acyclic : resolution.store.Acyclic) :
    VisitsAll (Walks (resolution.store.size + 1) .empty) resolution.modules resolution.opening
      resolution.pass.1 resolution.pass.2 :=
  visitsAll_resolveModules acyclic resolution.modules (advances_opening resolution).store

theorem pass_eq_of_visitsAll {resolution : Resolution}
    (visited : VisitsAll (Walks (resolution.store.size + 1) .empty) resolution.modules
      resolution.opening progress final) : resolution.pass = (progress, final) :=
  resolveModules_eq_of_visitsAll visited (advances_opening resolution).store

theorem pass_advances {resolution : Resolution} (acyclic : resolution.store.Acyclic) :
    resolution.Advances resolution.pass.2 := by
  have walks := (pass_visits acyclic).advances fun _ _ _ _ _ walked => walked.advances
  exact (advances_opening resolution).trans walks

end Declarations.Resolution
