import Declarations.Proofs.Run

/-!
# Sequences of calls

A resolution need not be driven by one run. Its user may settle single nodes, from any path, may
defer nodes, and may make passes and runs in any order. All of these are made of walks and of steps
that leave the nodes as they are, so what both keep holds after every sequence of calls. The main
statement is that a node which has once been reported as done stays done: whatever is called in
between, settling it again changes nothing.
-/

namespace Declarations

/-- What the user of a resolution can ask of it. -/
inductive Call where
  | defer (id : NodeId) (reason : String)
  | resolve (path : Path) (id : NodeId)
  | pass
  | run
  deriving DecidableEq, Repr

namespace Resolution

variable {resolution : Resolution}

/-- The resolution after a call. -/
def after (resolution : Resolution) : Call → Resolution
  | .defer id reason => resolution.defer id reason
  | .resolve path id => (resolution.resolve path id).2
  | .pass => resolution.pass.2
  | .run => resolution.run.2

/-- The resolution after several calls, the first of the list first. -/
def afterAll (resolution : Resolution) (calls : List Call) : Resolution :=
  calls.foldl after resolution

theorem afterAll_append (resolution : Resolution) (calls more : List Call) :
    resolution.afterAll (calls ++ more) = (resolution.afterAll calls).afterAll more :=
  List.foldl_append

/-- The resolution after so many passes. -/
def afterPasses (resolution : Resolution) (count : Nat) : Resolution :=
  resolution.afterAll (List.replicate count .pass)

@[simp] theorem afterPasses_zero (resolution : Resolution) :
    resolution.afterPasses 0 = resolution := rfl

theorem afterPasses_succ (resolution : Resolution) (count : Nat) :
    resolution.afterPasses (count + 1) = (resolution.afterPasses count).pass.2 := by
  rw [afterPasses, afterPasses, afterAll, afterAll, List.replicate_succ', List.foldl_append]
  rfl

/-- Reporting what is open changes no node. -/
theorem advances_conclude (resolution : Resolution) (progress : Progress) :
    resolution.Advances (resolution.conclude progress) := by
  cases progress with
  | done => exact .refl resolution
  | pending =>
    rw [conclude, reportOpen]
    split
    · exact advances_reportFatal _ _
    · exact ⟨.refl _, rfl, rfl, rfl, fun failed => failed⟩

/-- The two kinds of steps that calls are made of keep a property: walks, and steps that leave all
nodes as they are. -/
structure Stable (Inv : Resolution → Prop) : Prop where
  acyclic : ∀ {current}, Inv current → current.store.Acyclic
  walk : ∀ {levels path id start progress final},
    Walks levels path id start progress final → Inv start → Inv final
  neutral : ∀ {current next}, current.Advances next → next.store = current.store →
    Inv current → Inv next

namespace Stable

variable {Inv : Resolution → Prop} (stable : Stable Inv)

include stable

theorem resolve (holds : Inv resolution) (path : Path) (id : NodeId) :
    Inv (resolution.resolve path id).2 :=
  stable.walk (walks_resolve (stable.acyclic holds) (.refl _) path id) holds

theorem pass (holds : Inv resolution) : Inv resolution.pass.2 := by
  refine (pass_visits (stable.acyclic holds)).invariant Inv ?_ ?_
  · intro id _ start progress final walked
    exact stable.walk walked
  · exact stable.neutral (advances_opening resolution) rfl holds

theorem passesOfRun (holds : Inv resolution) : Inv resolution.passesOfRun.2 := by
  obtain ⟨before, holdsBefore, last⟩ :=
    exists_last_pass resolution Inv (fun holds => stable.pass holds) holds
  rw [last]
  exact stable.pass holdsBefore

theorem run (holds : Inv resolution) : Inv resolution.run.2 := by
  have kept := stable.passesOfRun holds
  cases passes : resolution.passesOfRun with
  | mk progress final =>
    rw [passes] at kept
    rw [run_eq passes]
    exact stable.neutral (advances_conclude final progress) (store_conclude final progress) kept

theorem after (holds : Inv resolution) (call : Call) : Inv (resolution.after call) := by
  cases call with
  | defer id reason => exact stable.neutral (advances_defer resolution id reason) rfl holds
  | resolve path id => exact stable.resolve holds path id
  | pass => exact stable.pass holds
  | run => exact stable.run holds

/-- What walks and neutral steps keep, every sequence of calls keeps. -/
theorem afterAll (holds : Inv resolution) (calls : List Call) :
    Inv (resolution.afterAll calls) := by
  induction calls generalizing resolution with
  | nil => exact holds
  | cons call rest ih => exact ih (stable.after holds call)

end Stable

/-- Calls only add marks. -/
theorem stable_advances {base : Resolution} (acyclic : base.store.Acyclic) :
    Stable base.Advances where
  acyclic since := since.store.acyclic acyclic
  walk walked since := since.trans walked.advances
  neutral advances _ since := since.trans advances

theorem advances_afterPasses (acyclic : resolution.store.Acyclic) (count : Nat) :
    resolution.Advances (resolution.afterPasses count) :=
  (stable_advances acyclic).afterAll (.refl resolution) _

end Resolution

/-! ## What is done stays done -/

/-- Where nothing is missing below a node, it is settled whether or not missing nodes count. -/
theorem Store.Settled.of_complete {store : Store} {lost : Prop} {id : NodeId}
    (settled : store.Settled lost id)
    (complete : ∀ below, Relation.ReflTransGen store.Holds id below → store.Present below) :
    store.Settled False id := by
  induction settled with
  | @missing id found =>
    have present := complete id .refl
    rw [Store.Present, found] at present
    cases present
  | marked found isMarked => exact .marked found isMarked
  | holder found unmarkable _ ih =>
    refine .holder found unmarkable ?_
    intro child held
    refine ih child held ?_
    intro below reached
    exact complete below (.head (Store.holds_iff.mpr ⟨_, found, held⟩) reached)

namespace Resolution

variable {resolution : Resolution} {path : Path} {id : NodeId}

/-- A node that was reported as done is settled from then on. -/
theorem settled_afterAll (acyclic : resolution.store.Acyclic)
    (complete : ∀ below, Relation.ReflTransGen resolution.store.Holds id below →
      resolution.store.Present below)
    (isDone : (resolution.resolve path id).1 = .done) (calls : List Call) :
    ((resolution.resolve path id).2.afterAll calls).store.Settled False id := by
  have walked := walks_resolve acyclic (.refl _) path id
  have toDone := walked.advances
  have settled := walked.settled isDone
  generalize (resolution.resolve path id).2 = done at *
  have completeDone : ∀ below, Relation.ReflTransGen done.store.Holds id below →
      done.store.Present below := by
    intro below reached
    rw [toDone.store.holds_eq] at reached
    exact toDone.store.present_iff.mpr (complete below reached)
  have later := (stable_advances (toDone.store.acyclic acyclic)).afterAll (.refl done) calls
  exact (settled.of_complete completeDone).mono later.store fun lost => lost

/-- A node whose subtree is complete and that was once reported as done is done for good: after any
further calls, settling it again from any path answers that it is done and changes nothing. -/
theorem resolve_idempotent (acyclic : resolution.store.Acyclic)
    (complete : ∀ below, Relation.ReflTransGen resolution.store.Holds id below →
      resolution.store.Present below)
    (isDone : (resolution.resolve path id).1 = .done) (calls : List Call) (other : Path) :
    ((resolution.resolve path id).2.afterAll calls).resolve other id =
      (.done, (resolution.resolve path id).2.afterAll calls) := by
  have settled := settled_afterAll acyclic complete isDone calls
  have advances := (stable_advances acyclic).afterAll (.refl resolution) (.resolve path id :: calls)
  have walked := walks_resolve (advances.store.acyclic acyclic) (.refl _) other id
  obtain ⟨done, unchanged⟩ := walked.unchanged settled
  exact Prod.ext done unchanged

/-- A module with a variable whose type is no type and a cover, and a module with a cover that names
itself. -/
def halfSettled : Resolution :=
  ofModules
    ⟨#[⟨.typeRef { name := ⟨1⟩ }, ⟨7, 12⟩⟩,
      ⟨.variable { header := { name := ⟨1⟩ }, type := some ⟨0⟩ }, ⟨0, 12⟩⟩,
      ⟨.typeRef { name := ⟨2⟩ }, ⟨25, 28⟩⟩,
      ⟨.cover { header := { name := ⟨3⟩ }, fromType := some ⟨2⟩ }, ⟨13, 28⟩⟩,
      ⟨.module
        { name := ⟨4⟩
          declarations := [⟨1⟩, ⟨3⟩]
          symbols := [(⟨1⟩, ⟨1⟩), (⟨3⟩, ⟨3⟩)] }, ⟨0, 28⟩⟩,
      ⟨.typeRef { name := ⟨5⟩ }, ⟨40, 44⟩⟩,
      ⟨.cover { header := { name := ⟨5⟩ }, fromType := some ⟨5⟩ }, ⟨29, 44⟩⟩,
      ⟨.module { name := ⟨6⟩, declarations := [⟨6⟩], symbols := [(⟨5⟩, ⟨6⟩)] }, ⟨29, 44⟩⟩]⟩
    (.ofTexts ["width", "Int", "Count", "main", "Knot", "lib"]) [⟨4⟩, ⟨7⟩]

theorem resolve_idempotent_halfSettled :
    (halfSettled.resolve .empty ⟨4⟩).1 = .done ∧
    (halfSettled.resolve .empty ⟨4⟩).2.failed = true ∧
    ((halfSettled.resolve .empty ⟨4⟩).2.afterAll
      [.pass, .resolve .empty ⟨6⟩, .run]).deferrals.map Deferral.node = [⟨5⟩] ∧
    ((halfSettled.resolve .empty ⟨4⟩).2.afterAll [.pass, .resolve .empty ⟨6⟩, .run]).resolve
        (Path.empty.push ⟨7⟩) ⟨4⟩ =
      (.done,
        (halfSettled.resolve .empty ⟨4⟩).2.afterAll [.pass, .resolve .empty ⟨6⟩, .run]) := by
  have forest : halfSettled.store.Forest := Store.forest_of_earlier (by decide) (by decide)
  have isDone : (halfSettled.resolve .empty ⟨4⟩).1 = .done := by decide
  have complete : ∀ below, Relation.ReflTransGen halfSettled.store.Holds ⟨4⟩ below →
      halfSettled.store.Present below := by
    intro below reached
    rcases reached.cases_tail with same | ⟨parent, -, held⟩
    · rw [same]
      exact Store.present_iff.mpr (by decide)
    · exact forest.present held
  exact ⟨isDone, by decide, by decide,
    resolve_idempotent forest.acyclic complete isDone _ (Path.empty.push ⟨7⟩)⟩

end Resolution

end Declarations
