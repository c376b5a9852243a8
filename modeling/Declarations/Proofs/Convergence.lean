import Declarations.Proofs.Replay
import Declarations.Proofs.Run

/-!
# Convergence

A pass that marks a type leaves fewer types to mark, and after a pass that marks none nothing
changes any more. So the number of covers and enumerations bounds the number of passes that matter:
a run that can end with nothing open does so within one pass more than there are types, and every
budget above their number gives the same result.
-/

namespace Declarations.Resolution

variable {resolution : Resolution}

/-- A pass repeats the state it begins with. -/
def Idle (resolution : Resolution) (progress : Progress) : Prop :=
  resolution.pass = (progress, { resolution with passes := resolution.passes + 1 })

/-- A pass does not look at the budget and the number of passes. -/
theorem pass_recount (acyclic : resolution.store.Acyclic) (budget : Budget) (passes : Nat) :
    (resolution.recount budget passes).pass =
      (resolution.pass.1, resolution.pass.2.recount budget (passes + 1)) := by
  have visits := (pass_visits acyclic).imp fun _ _ _ _ _ walked =>
    walked.recount budget (passes + 1)
  have recounted := visits.map (·.recount budget (passes + 1))
  have opening : resolution.opening.recount budget (passes + 1) =
      (resolution.recount budget passes).opening := rfl
  rw [opening] at recounted
  exact pass_eq_of_visitsAll recounted

theorem pass_passes (acyclic : resolution.store.Acyclic) :
    resolution.pass.2.passes = resolution.passes + 1 := by
  have same : (resolution.recount resolution.budget resolution.passes).pass = resolution.pass := rfl
  rw [pass_recount acyclic] at same
  exact (congrArg (fun answer => answer.2.passes) same).symm

/-- The passes of a bounded sequence are counted. -/
theorem passesWithin_passes_le (acyclic : resolution.store.Acyclic) (count : Nat) :
    (passesWithin count resolution).2.passes ≤ resolution.passes + count := by
  induction count generalizing resolution with
  | zero => exact Nat.le_refl _
  | succ count ih =>
    have counted := pass_passes acyclic
    have acyclicAfter := (pass_advances acyclic).store.acyclic acyclic
    rw [passesWithin]
    cases passed : resolution.pass with
    | mk progress after =>
      rw [passed] at counted acyclicAfter
      cases progress with
      | done =>
        dsimp only at counted ⊢
        omega
      | pending =>
        have later := ih acyclicAfter
        dsimp only at counted later ⊢
        omega

namespace Idle

theorem recount {progress : Progress} (idle : resolution.Idle progress)
    (acyclic : resolution.store.Acyclic) (budget : Budget) (passes : Nat) :
    (resolution.recount budget passes).Idle progress := by
  rw [Idle, pass_recount acyclic, idle]
  rfl

/-- Once a pass repeats itself and leaves something open, so do all that follow. -/
theorem passesWithin_eq (idle : resolution.Idle .pending) (acyclic : resolution.store.Acyclic)
    (budget : Budget) (passes count : Nat) :
    passesWithin count (resolution.recount budget passes) =
      (.pending, resolution.recount budget (passes + count)) := by
  induction count generalizing passes with
  | zero => rfl
  | succ count ih =>
    have next : (resolution.recount budget passes).pass =
        (.pending, resolution.recount budget (passes + 1)) :=
      idle.recount acyclic budget passes
    rw [passesWithin, next]
    dsimp only
    rw [ih, Nat.add_right_comm]
    rfl

/-- A pass after one that left nothing open finds nothing to do. -/
theorem of_done (placed : resolution.WellPlaced) (isDone : resolution.pass.1 = .done) :
    resolution.pass.2.Idle .done := by
  have acyclic := placed.acyclic
  have advances := pass_advances acyclic
  have placedAfter := advances.wellPlaced placed
  have empty := pass_backlog_eq_empty acyclic isDone
  have visits := pass_visits acyclic
  rw [isDone] at visits
  have settled := visits.settled fun _ _ _ _ walked => ⟨walked.advances, walked.settled⟩
  generalize resolution.pass.2 = final at *
  have again := pass_visits placedAfter.acyclic
  obtain ⟨done, same⟩ := again.unchanged fun id listed progress after walked =>
    walked.unchanged (placedAfter.settled (.root listed)
      (settled id (advances.modules ▸ listed)))
  have opening : final.opening = { final with passes := final.passes + 1 } := by
    rw [Resolution.opening, empty]
  rw [opening] at same
  exact Prod.ext done same

end Idle

/-! ## Types that are open -/

/-- The covers and enumerations at and below the listed modules that are not resolved. -/
def openTypes (resolution : Resolution) : Set NodeId :=
  {id ∈ resolution.reachableTypes | resolution.store.isResolved id = false}

theorem finite_openTypes (resolution : Resolution) : resolution.openTypes.Finite :=
  resolution.finite_reachableTypes.subset fun _ member => member.1

theorem ncard_openTypes_le (resolution : Resolution) :
    resolution.openTypes.ncard ≤ resolution.typeCount :=
  Set.ncard_le_ncard (fun _ member => member.1) resolution.finite_reachableTypes

/-- A type that becomes resolved is one type less that is open. -/
theorem ncard_openTypes_lt {final : Resolution} {id : NodeId} (advances : resolution.Advances final)
    (reachable : resolution.Reachable id)
    (isType : (resolution.store.kind? id).any Kind.isTypeDecl = true)
    (isOpen : resolution.store.isResolved id = false)
    (resolved : final.store.isResolved id = true) :
    final.openTypes.ncard < resolution.openTypes.ncard := by
  apply Set.ncard_lt_ncard _ resolution.finite_openTypes
  constructor
  · intro other member
    rw [openTypes, advances.reachableTypes_eq] at member
    refine ⟨member.1, ?_⟩
    cases earlier : resolution.store.isResolved other with
    | false => rfl
    | true =>
      have later := advances.store.isResolved_mono earlier
      rw [member.2] at later
      cases later
  · intro inclusion
    have member : id ∈ final.openTypes := inclusion ⟨⟨reachable, isType⟩, isOpen⟩
    have still := member.2
    rw [resolved] at still
    cases still

/-- A pass marks a type that was open, or the next pass repeats it. -/
theorem pass_idle_or_lt (placed : resolution.WellPlaced) :
    resolution.pass.2.Idle resolution.pass.1 ∨
      resolution.pass.2.openTypes.ncard < resolution.openTypes.ncard := by
  by_cases types : ∀ id, (resolution.store.kind? id).any Kind.isTypeDecl = true →
      resolution.pass.2.store.isResolved id = true → resolution.store.isResolved id = true
  · exact Or.inl (pass_repeats placed types)
  · right
    simp only [not_forall] at types
    obtain ⟨id, isType, resolved, isOpen⟩ := types
    have unresolved : resolution.store.isResolved id = false := Bool.eq_false_iff.mpr isOpen
    have justified :=
      (Justified.refl resolution).pass (route_position resolution) placed.acyclic
    obtain ⟨content, found, isResolved⟩ := Store.isResolved_iff.mp resolved
    obtain ⟨given, foundGiven, step⟩ := justified.advances.store.backward found
    have unmarked : given.isMarked = false := by
      have declares := Content.isDeclaration_of_isResolved isResolved
      rw [step.kind_eq] at declares
      cases marked : given.isMarked with
      | false => rfl
      | true =>
        exact absurd (Store.isResolved_iff.mpr
          ⟨given, foundGiven, Content.isResolved_of_isMarked declares marked⟩) isOpen
    have reachable := (justified.declaration foundGiven unmarked resolved).1
    exact ncard_openTypes_lt justified.advances reachable isType unresolved resolved

/-- There is a state at which all sequences of passes arrive that are longer than there are open
types, and which further passes repeat. -/
theorem exists_limit (placed : resolution.WellPlaced) :
    ∃ progress final, final.Idle progress ∧ resolution.Advances final ∧
      ∀ budget passes count, resolution.openTypes.ncard < count →
        ∃ counted, passesWithin count (resolution.recount budget passes) =
            (progress, final.recount budget counted) ∧
          (progress = .done → counted ≤ passes + resolution.openTypes.ncard + 1) := by
  -- by induction on the number of open types, of which each pass before the last marks one
  generalize bound : resolution.openTypes.ncard = left
  induction left using Nat.strongRecOn generalizing resolution with
  | ind left ih =>
    have acyclic := placed.acyclic
    have advances := pass_advances acyclic
    have first := pass_recount acyclic
    have idle := pass_idle_or_lt placed
    have done : resolution.pass.1 = .done → resolution.pass.2.Idle .done := Idle.of_done placed
    have placedAfter := advances.wellPlaced placed
    cases passed : resolution.pass with
    | mk progress after =>
      rw [passed] at advances first idle done placedAfter
      dsimp only at advances first idle done placedAfter
      cases progress with
      | done =>
        refine ⟨.done, after, done rfl, advances, ?_⟩
        intro budget passes count enough
        obtain ⟨more, rfl⟩ := Nat.exists_eq_add_of_lt enough
        refine ⟨passes + 1, ?_, ?_⟩
        · rw [passesWithin, first]
        · intro _
          omega
      | pending =>
        have step : ∀ budget passes count, 0 < count →
            passesWithin count (resolution.recount budget passes) =
              passesWithin (count - 1) (after.recount budget (passes + 1)) := by
          intro budget passes count positive
          obtain ⟨more, rfl⟩ := Nat.exists_eq_succ_of_ne_zero (Nat.ne_of_gt positive)
          rw [passesWithin, first]
          rfl
        rcases idle with repeats | fewer
        · refine ⟨.pending, after, repeats, advances, ?_⟩
          intro budget passes count enough
          refine ⟨passes + 1 + (count - 1), ?_, ?_⟩
          · rw [step budget passes count (by omega)]
            exact repeats.passesWithin_eq placedAfter.acyclic budget (passes + 1) (count - 1)
          · intro isDone
            cases isDone
        · rw [bound] at fewer
          obtain ⟨progress, final, idleFinal, toFinal, limit⟩ := ih _ fewer placedAfter rfl
          refine ⟨progress, final, idleFinal, advances.trans toFinal, ?_⟩
          intro budget passes count enough
          obtain ⟨counted, reached, inTime⟩ := limit budget (passes + 1) (count - 1) (by omega)
          refine ⟨counted, ?_, ?_⟩
          · rw [step budget passes count (by omega)]
            exact reached
          · intro isDone
            have early := inTime isDone
            omega

/-! ## Runs -/

/-- A run ends with something deferred unless its last pass was done. -/
theorem done_of_deferrals_eq_nil {progress : Progress} {final : Resolution}
    (acyclic : resolution.store.Acyclic)
    (passes : resolution.passesOfRun = (progress, final)) (empty : final.deferrals = []) :
    progress = .done := by
  obtain ⟨before, acyclicBefore, last⟩ := exists_last_pass resolution
    (fun current => current.store.Acyclic)
    (fun acyclic => (pass_advances acyclic).store.acyclic acyclic) acyclic
  rw [passes] at last
  cases progress with
  | done => rfl
  | pending =>
    have nonempty := pass_deferred_ne_nil acyclicBefore (congrArg Prod.fst last).symm
    rw [← last, deferred, empty] at nonempty
    exact absurd rfl nonempty

theorem run_passes_le (placed : resolution.WellPlaced)
    (empty : resolution.run.2.deferrals = []) :
    resolution.run.1.passes ≤ resolution.passes + resolution.typeCount + 1 := by
  have bound := resolution.ncard_openTypes_le
  cases passes : resolution.passesOfRun with
  | mk progress final =>
    rw [run_eq passes] at empty ⊢
    rw [deferrals_conclude] at empty
    have isDone := done_of_deferrals_eq_nil placed.acyclic passes empty
    subst isDone
    change final.passes ≤ _
    rw [passesOfRun] at passes
    -- a small budget bounds the passes by itself
    rcases Nat.lt_or_ge resolution.openTypes.ncard (max resolution.budget.maxPasses 1) with
      enough | small
    · obtain ⟨progress, limit, -, -, reaches⟩ := exists_limit placed
      obtain ⟨counted, reached, inTime⟩ :=
        reaches resolution.budget resolution.passes _ enough
      have same : resolution.recount resolution.budget resolution.passes = resolution := rfl
      rw [same, passes] at reached
      obtain ⟨rfl, rfl⟩ := Prod.mk.inj reached
      have early := inTime rfl
      change counted ≤ _
      omega
    · have counted := passesWithin_passes_le placed.acyclic (max resolution.budget.maxPasses 1)
      rw [passes] at counted
      dsimp only at counted
      omega

/-- All runs with more passes than there are types end in one state, up to what they count. -/
theorem exists_run_limit (placed : resolution.WellPlaced) :
    ∃ progress final, final.Idle progress ∧ resolution.Advances final ∧
      ∀ budget : Budget, resolution.typeCount < budget.maxPasses →
        ∃ counted, (resolution.withBudget budget).passesOfRun =
          (progress, final.recount budget counted) := by
  obtain ⟨progress, final, idle, advances, reaches⟩ := exists_limit placed
  refine ⟨progress, final, idle, advances, ?_⟩
  intro budget enough
  have bound := resolution.ncard_openTypes_le
  obtain ⟨counted, reached, -⟩ := reaches budget resolution.passes (max budget.maxPasses 1)
    (by omega)
  exact ⟨counted, reached⟩

/-- A run whose budget is above the number of types ends where a further pass has nothing to do. -/
theorem passesOfRun_idle (placed : resolution.WellPlaced)
    (enough : resolution.typeCount < resolution.budget.maxPasses) :
    resolution.passesOfRun.2.Idle resolution.passesOfRun.1 := by
  obtain ⟨progress, final, idle, advances, reaches⟩ := exists_run_limit placed
  obtain ⟨counted, reached⟩ := reaches resolution.budget enough
  have same : resolution.withBudget resolution.budget = resolution := rfl
  rw [same] at reached
  rw [reached]
  exact idle.recount (advances.store.acyclic placed.acyclic) resolution.budget counted

/-- A pass that marks no cover and no enumeration is repeated by the next one. Hence a run that ends
with nothing open does so within one pass more than there are covers and enumerations, and two runs
whose budgets allow that many end with the same nodes, the same status and the same reports. -/
theorem run_converges (forest : resolution.store.Forest) (lists : resolution.ListsModules) :
    ((∀ id, (resolution.store.kind? id).any Kind.isTypeDecl = true →
        resolution.pass.2.store.isResolved id = true → resolution.store.isResolved id = true) →
      resolution.pass.2.pass =
        (resolution.pass.1,
          { resolution.pass.2 with passes := resolution.pass.2.passes + 1 })) ∧
    (resolution.run.2.deferrals = [] →
      resolution.run.1.passes ≤ resolution.passes + resolution.typeCount + 1) ∧
    ∀ budget other : Budget, resolution.typeCount + 1 ≤ budget.maxPasses →
      resolution.typeCount + 1 ≤ other.maxPasses →
      (resolution.withBudget budget).run.2.store = (resolution.withBudget other).run.2.store ∧
      (resolution.withBudget budget).run.1.status = (resolution.withBudget other).run.1.status ∧
      (resolution.withBudget budget).run.2.log = (resolution.withBudget other).run.2.log := by
  have placed := wellPlaced_of_forest forest lists
  refine ⟨pass_repeats placed, run_passes_le placed, ?_⟩
  intro budget other enough enoughOther
  obtain ⟨progress, final, -, -, reaches⟩ := exists_run_limit placed
  obtain ⟨counted, reached⟩ := reaches budget enough
  obtain ⟨countedOther, reachedOther⟩ := reaches other enoughOther
  rw [run_eq reached, run_eq reachedOther, conclude_recount, conclude_recount]
  exact ⟨rfl, rfl, rfl⟩

/-- A module that was resolved in part: its cover is marked and bound, its variable is not. -/
def resumed : Resolution :=
  ofModules
    ⟨#[⟨.typeRef { name := ⟨2⟩, target := some (.builtin .int) }, ⟨12, 15⟩⟩,
      ⟨.cover
        { header := { name := ⟨1⟩, flags := { isResolved := true } }
          fromType := some ⟨0⟩ }, ⟨0, 15⟩⟩,
      ⟨.typeRef { name := ⟨1⟩ }, ⟨23, 28⟩⟩,
      ⟨.literal (.int 3), ⟨31, 32⟩⟩,
      ⟨.variable { header := { name := ⟨3⟩ }, type := some ⟨2⟩, value := some ⟨3⟩ }, ⟨16, 32⟩⟩,
      ⟨.module
        { name := ⟨4⟩
          declarations := [⟨4⟩, ⟨1⟩]
          symbols := [(⟨3⟩, ⟨4⟩), (⟨1⟩, ⟨1⟩)] }, ⟨0, 32⟩⟩]⟩
    (.ofTexts ["Count", "Int", "limit", "main"]) [⟨5⟩]

theorem run_converges_resumed :
    resumed.pass.2.pass = (resumed.pass.1,
      { resumed.pass.2 with passes := resumed.pass.2.passes + 1 }) ∧
    resumed.run.1.passes ≤ resumed.passes + resumed.typeCount + 1 ∧
    (resumed.withBudget ⟨7⟩).run.2.store = (resumed.withBudget ⟨40⟩).run.2.store := by
  have forest : resumed.store.Forest := Store.forest_of_earlier (by decide) (by decide)
  have lists : resumed.ListsModules := by decide
  have few : resumed.typeCount ≤ 6 := typeCount_le_size resumed
  obtain ⟨repeats, inTime, agree⟩ := run_converges forest lists
  refine ⟨repeats ?_, inTime (by decide), (agree ⟨7⟩ ⟨40⟩ ?_ ?_).1⟩
  · intro id isType
    obtain ⟨kind, known, -⟩ := (Option.any_eq_true _ _).mp isType
    have all : ∀ index < 6, (resumed.store.kind? ⟨index⟩).any Kind.isTypeDecl = true →
        resumed.pass.2.store.isResolved ⟨index⟩ = true →
        resumed.store.isResolved ⟨index⟩ = true := by decide
    exact all id.index (Store.present_iff.mp (present_of_kind? known)) isType
  · show _ ≤ 7
    omega
  · show _ ≤ 40
    omega

end Declarations.Resolution
