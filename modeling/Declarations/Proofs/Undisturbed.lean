import Declarations.Proofs.Convergence
import Declarations.Proofs.Extension
import Declarations.Proofs.Registration

/-!
# Declarations that do not disturb each other

A declaration is put into a module under a name that nothing else looks up. Two resolutions, with
and without it, go side by side: every walk of an earlier node does the same in both, and the walk
of the declaration stays among its own nodes. The larger run may make more passes, as the
declaration may stay open for ever; the smaller one has nothing left to do in them. So what becomes
of the declaration is nowhere seen but at its own nodes.
-/

namespace Declarations.Resolution

/-! ## Sequences of visits side by side -/

section Simulation

variable {visits others : NodeId → Visit} {ids : List NodeId} {stages : List (List NodeId)}
  {start final other : Resolution} {progress : Progress} {R : Resolution → Resolution → Prop}

/-- Visits that can be made side by side make sequences side by side. The progress of the second may
be another one, as long as sequences keep how the two are related. -/
theorem VisitsAll.simulate (others : NodeId → Visit) (R : Resolution → Resolution → Prop)
    (agree : Progress → Progress → Prop) (done : agree .done .done)
    (and : ∀ {first second own others}, agree first own → agree second others →
      agree (first.and second) (own.and others))
    (step : ∀ id ∈ ids, ∀ {start progress final other}, visits id start progress final →
      R start other → ∃ own after, others id other own after ∧ agree progress own ∧ R final after)
    (visited : VisitsAll visits ids start progress final) (related : R start other) :
    ∃ own after, VisitsAll others ids other own after ∧ agree progress own ∧ R final after := by
  induction visited generalizing other with
  | nil => exact ⟨.done, other, .nil, done, related⟩
  | @cons id rest start middle final first second head tail ih =>
    obtain ⟨own, reached, visit, agrees, relatedMiddle⟩ := step id List.mem_cons_self head related
    obtain ⟨second', after, visits, agreesRest, relatedFinal⟩ :=
      ih (fun id member => step id (List.mem_cons_of_mem _ member)) relatedMiddle
    exact ⟨_, after, .cons visit visits, and agrees agreesRest, relatedFinal⟩

theorem VisitsAll.simulate_eq
    (step : ∀ id ∈ ids, ∀ {start progress final other}, visits id start progress final →
      R start other → ∃ after, others id other progress after ∧ R final after)
    (visited : VisitsAll visits ids start progress final) (related : R start other) :
    ∃ after, VisitsAll others ids other progress after ∧ R final after := by
  obtain ⟨own, after, visitedOther, same, relatedFinal⟩ :=
    visited.simulate others R Eq rfl (fun first second => first ▸ second ▸ rfl)
      (fun id member start progress final other visit related => by
        obtain ⟨after, visitOther, relatedAfter⟩ := step id member visit related
        exact ⟨progress, after, visitOther, rfl, relatedAfter⟩)
      related
  subst same
  exact ⟨after, visitedOther, relatedFinal⟩

theorem VisitsStages.simulate
    (step : ∀ id ∈ stages.flatten, ∀ {start progress final other},
      visits id start progress final → R start other →
      ∃ after, others id other progress after ∧ R final after)
    (visited : VisitsStages visits stages start progress final) (related : R start other) :
    ∃ after, VisitsStages others stages other progress after ∧ R final after := by
  induction visited generalizing other with
  | nil => exact ⟨other, .nil, related⟩
  | @done stage rest start middle final progress head tail ih =>
    rw [List.flatten_cons] at step
    obtain ⟨reached, visited, relatedMiddle⟩ :=
      head.simulate_eq (fun id member => step id (List.mem_append_left _ member)) related
    obtain ⟨after, visitedRest, relatedFinal⟩ :=
      ih (fun id member => step id (List.mem_append_right _ member)) relatedMiddle
    exact ⟨after, .done visited visitedRest, relatedFinal⟩
  | @pending stage rest start final head =>
    rw [List.flatten_cons] at step
    obtain ⟨after, visited, relatedFinal⟩ :=
      head.simulate_eq (fun id member => step id (List.mem_append_left _ member)) related
    exact ⟨after, .pending visited, relatedFinal⟩

end Simulation

/-- The walk of a module is that of its declarations. -/
theorem walks_module_iff {levels : Nat} {path : Path} {id : NodeId} {start final : Resolution}
    {progress : Progress} {scope : Module}
    (found : start.store.content? id = some (.module scope)) :
    Walks (levels + 1) path id start progress final ↔
      VisitsAll (Walks levels (path.push id)) scope.declarations start progress final := by
  have finished : ∀ {progress after}, VisitsAll (Walks levels (path.push id)) scope.declarations
      start progress after → after.finish id = after := by
    intro progress after visited
    have toAfter := visited.advances fun _ _ _ _ _ walked => walked.advances
    obtain ⟨later, foundLater, step⟩ := toAfter.store.forward found
    exact finish_eq_self foundLater (Or.inr step.isMarkable_eq)
  constructor
  · intro walked
    rw [Walks, Walks.entered found rfl rfl] at walked
    obtain ⟨⟨reached, after⟩, resolved, ended⟩ := Option.map_eq_some_iff.mp walked
    cases visitsStages_of_resolveStages resolved with
    | done head tail =>
      cases tail
      cases ended
      rw [finished head]
      exact head
    | pending head =>
      cases ended
      exact head
  · intro visited
    cases progress with
    | done =>
      have walked := Walks.finish found rfl rfl (.done visited .nil)
      rw [finished visited] at walked
      exact walked
    | pending => exact .stop found rfl rfl (.pending visited)

/-! ## Walks side by side -/

namespace Alongside

variable {base extended : Store} {host decl : NodeId} {name : Name}
  {first second next after : Resolution} {path : Path} {id : NodeId}

theorem step (alongside : Alongside base extended host first second)
    (advances : first.Advances next) (advancesOther : second.Advances after)
    (content : ∀ {id}, base.Present id → id ≠ host →
      after.store.content? id = next.store.content? id) :
    Alongside base extended host next after where
  since := alongside.since.trans advances.store
  sinceExtended := alongside.sinceExtended.trans advancesOther.store
  content := content
  names := by rw [advances.names, advancesOther.names, alongside.names]
  modules := by rw [advances.modules, advancesOther.modules, alongside.modules]
  importable := by rw [advances.importable, advancesOther.importable, alongside.importable]
  importsPresent := by
    rw [advances.importable]
    exact alongside.importsPresent

/-- The same change of a node on both sides. -/
theorem content?_modify (alongside : Alongside base extended host first second) (id : NodeId)
    (f : Content → Content) {other : NodeId} (old : base.Present other) (different : other ≠ host) :
    (second.store.modify id f).content? other = (first.store.modify id f).content? other := by
  rw [Store.content?_modify, Store.content?_modify, alongside.content old different]

theorem push_within (within : path.Within base) (old : base.Present id) :
    (path.push id).Within base := by
  intro other member
  rcases List.mem_cons.mp member with rfl | inPath
  · exact old
  · exact within other inPath

/-- An earlier reference that is open is found and judged alike. -/
theorem reference (alongside : Alongside base extended host first second)
    (extension : base.Extends extended host decl name) (symbols : base.SymbolsPresent)
    (old : base.Present id) (within : path.Within base) (different : id ≠ host) {content : Content}
    (found : first.store.content? id = some content) (isOpen : content.isMarked = false) :
    second.store.content? id = some content ∧
      second.judge (path.push id) id content = first.judge (path.push id) id content := by
  refine ⟨(alongside.content old different).trans found, ?_⟩
  exact alongside.judge_eq extension symbols old (push_within within old)
    (extension.unused (alongside.since.found_of_not_isMarked found isOpen))

/-- A walk of an earlier node that does not lead to the module with the new declaration is made
alongside, with the same progress. -/
theorem walk (extension : base.Extends extended host decl name) (forest : base.Forest)
    (symbols : base.SymbolsPresent) {levels : Nat} {start final other : Resolution}
    {progress : Progress} (walked : Walks levels path id start progress final) (extra : Nat)
    (alongside : Alongside base extended host start other) (old : base.Present id)
    (within : path.Within base) (elsewhere : ¬ Relation.ReflTransGen base.Holds id host) :
    ∃ after, Walks (extra + levels) path id other progress after ∧
      Alongside base extended host final after := by
  have differs : ∀ {id}, ¬ Relation.ReflTransGen base.Holds id host → id ≠ host := by
    rintro id elsewhere rfl
    exact elsewhere .refl
  have through : ∀ {levels path id start progress final content} {other : Resolution},
      Alongside base extended host start other → base.Present id → Path.Within path base →
      ¬ Relation.ReflTransGen base.Holds id host → start.store.content? id = some content →
      VisitsStages (fun child before own next => ∃ _ : Walks levels (path.push id) child before own
        next, ∀ {other}, Alongside base extended host before other → base.Present child →
          (path.push id).Within base → ¬ Relation.ReflTransGen base.Holds child host →
          ∃ after, Walks (extra + levels) (path.push id) child other own after ∧
            Alongside base extended host next after) content.stages start progress final →
      ∃ after, VisitsStages (Walks (extra + levels) (path.push id)) content.stages other progress
        after ∧ Alongside base extended host final after := by
    intro levels path id start progress final content other alongside old within elsewhere found
      stages
    refine stages.simulate ?_ alongside
    intro child member before own next other visit alongsideBefore
    have held := alongside.since.holds_iff.mp (Store.holds_iff.mpr ⟨content, found, member⟩)
    exact visit.2 alongsideBefore (forest.present held) (push_within within old)
      fun reached => elsewhere (.head held reached)
  induction walked using Walks.induction generalizing other with
  | @missing levels path id start found =>
    have present := alongside.since.present_iff.mpr old
    rw [Store.Present, found] at present
    cases present
  | @marked levels path id start content found isMarked =>
    have foundOther := (alongside.content old (differs elsewhere)).trans found
    exact ⟨other, .marked foundOther isMarked, alongside⟩
  | @bind levels path id start content bound found isReference isOpen judged =>
    obtain ⟨foundOther, same⟩ :=
      alongside.reference extension symbols old within (differs elsewhere) found isOpen
    rw [judged] at same
    refine ⟨_, .bind foundOther isReference isOpen same, alongside.step ?_ ?_ ?_⟩
    · exact advances_bind found isReference isOpen judged
    · exact advances_bind foundOther isReference isOpen same
    · exact alongside.content?_modify id _
  | @wait levels path id start content reason found isReference isOpen judged =>
    obtain ⟨foundOther, same⟩ :=
      alongside.reference extension symbols old within (differs elsewhere) found isOpen
    rw [judged] at same
    refine ⟨_, .wait foundOther isReference isOpen same, alongside.step ?_ ?_ ?_⟩
    · exact advances_defer start id reason
    · exact advances_defer other id reason
    · exact alongside.content
  | @reject levels path id start content report found isReference isOpen judged =>
    obtain ⟨foundOther, same⟩ :=
      alongside.reference extension symbols old within (differs elsewhere) found isOpen
    rw [judged] at same
    refine ⟨_, .reject foundOther isReference isOpen same, alongside.step ?_ ?_ ?_⟩
    · exact advances_giveUp found isOpen report
    · exact advances_giveUp foundOther isOpen report
    · exact alongside.content?_modify id _
  | @finish levels path id start final content found notReference isOpen _ stages =>
    have foundOther := (alongside.content old (differs elsewhere)).trans found
    obtain ⟨reached, visited, alongsideFinal⟩ := through alongside old within elsewhere found stages
    refine ⟨_, .finish foundOther notReference isOpen visited, alongsideFinal.step ?_ ?_ ?_⟩
    · exact advances_finish final id
    · exact advances_finish reached id
    · exact alongsideFinal.content?_modify id _
  | @stop levels path id start final content found notReference isOpen _ stages =>
    have foundOther := (alongside.content old (differs elsewhere)).trans found
    obtain ⟨reached, visited, alongsideFinal⟩ := through alongside old within elsewhere found stages
    exact ⟨reached, .stop foundOther notReference isOpen visited, alongsideFinal⟩

/-- A walk of the new declaration changes no earlier node. -/
theorem walk_new (alongside : Alongside base extended host first second)
    (extension : base.Extends extended host decl name) {levels : Nat} {progress : Progress}
    (walked : Walks levels path decl second progress after) :
    Alongside base extended host first after := by
  refine alongside.step (.refl first) walked.advances ?_
  intro id old different
  have outside : ¬ Relation.ReflTransGen second.store.Holds decl id := by
    rw [alongside.sinceExtended.holds_eq]
    exact fun reached => extension.new reached old
  exact (walked.staysWithin.content outside).trans (alongside.content old different)

section Passes

variable (extension : base.Extends extended host decl name) (forest : base.Forest)
  (symbols : base.SymbolsPresent) (acyclic : extended.Acyclic)

include extension forest symbols acyclic

/-- The walk of the module with the new declaration is made alongside. It is done only where it is
done without the declaration. -/
theorem walk_host {start final other : Resolution} {progress : Progress}
    (walked : Walks (base.size + 1) .empty host start progress final)
    (alongside : Alongside base extended host start other) :
    ∃ own after, Walks (extended.size + 1) .empty host other own after ∧
      (own = .done → progress = .done) ∧ Alongside base extended host final after := by
  obtain ⟨scope, entered, found, foundOther, enters⟩ := alongside.exists_modules extension
  obtain ⟨early, late, declarations, enteredDeclarations⟩ := enters.declarations
  obtain ⟨extra, sizes⟩ := Nat.exists_eq_add_of_le' extension.size_le
  have step : ∀ child ∈ early ++ late, ∀ {start progress final other},
      Walks base.size (Path.empty.push host) child start progress final →
      Alongside base extended host start other →
      ∃ after, Walks extended.size (Path.empty.push host) child other progress after ∧
        Alongside base extended host final after := by
    intro child member before own next otherBefore walked alongsideBefore
    have held : base.Holds host child := by
      apply alongside.since.holds_iff.mp
      refine Store.holds_iff.mpr ⟨_, found, ?_⟩
      simpa [Content.children, Content.stages, declarations] using member
    rw [sizes]
    refine walk extension forest symbols walked extra alongsideBefore (forest.present held)
      (push_within (List.forall_mem_nil _) held.present) ?_
    exact fun reached => forest.acyclic host (.head' held reached)
  rw [walks_module_iff found, declarations] at walked
  obtain ⟨first, middle, second, visitedEarly, visitedLate, split⟩ := walked.exists_append
  obtain ⟨reached, otherEarly, alongsideMiddle⟩ := visitedEarly.simulate_eq
    (fun child member => step child (List.mem_append_left _ member)) alongside
  -- the new declaration is below its module, so the levels are enough for it
  have held : extended.Holds host decl := by
    apply alongside.sinceExtended.holds_iff.mp
    refine Store.holds_iff.mpr ⟨_, foundOther, ?_⟩
    simp [Content.children, Content.stages, enteredDeclarations]
  have enough : extended.rank decl < extended.size :=
    Nat.lt_of_lt_of_le (acyclic.rank_lt held) (extended.rank_le_size host)
  obtain ⟨newProgress, passed, walkedNew⟩ := @exists_walk extended reached acyclic extended.size
    (Path.empty.push host) decl alongsideMiddle.sinceExtended enough
  obtain ⟨after, otherLate, alongsideFinal⟩ := visitedLate.simulate_eq
    (fun child member => step child (List.mem_append_right _ member))
    (alongsideMiddle.walk_new extension walkedNew)
  refine ⟨first.and (newProgress.and second), after, ?_, ?_, alongsideFinal⟩
  · rw [walks_module_iff foundOther, enteredDeclarations]
    exact otherEarly.append_and (.cons walkedNew otherLate)
  · rw [split]
    simp only [Progress.and_eq_done]
    rintro ⟨firstDone, -, secondDone⟩
    exact ⟨firstDone, secondDone⟩

/-- A pass is made alongside. It is done only where it is done without the declaration. -/
theorem pass (alongside : Alongside base extended host first second)
    (listed : ∀ id ∈ first.modules, base.Present id)
    (apart : ∀ id ∈ first.modules, id ≠ host → ¬ Relation.ReflTransGen base.Holds id host) :
    (second.pass.1 = .done → first.pass.1 = .done) ∧
      Alongside base extended host first.pass.2 second.pass.2 := by
  obtain ⟨extra, sizes⟩ := Nat.exists_eq_add_of_le' extension.size_le
  have opened : Alongside base extended host first.opening second.opening :=
    alongside.step (advances_opening first) (advances_opening second) alongside.content
  have visits := visitsAll_resolveModules forest.acyclic first.modules opened.since
  obtain ⟨own, after, visited, ends, alongsideFinal⟩ :=
    visits.simulate (Walks (extended.size + 1) .empty) (Alongside base extended host)
      (fun progress own => own = .done → progress = .done) (fun _ => rfl)
      (fun first second => by
        simp only [Progress.and_eq_done]
        exact fun both => ⟨first both.1, second both.2⟩)
      (fun id member start progress final other walked alongside => by
        by_cases same : id = host
        · subst same
          exact walk_host extension forest symbols acyclic walked alongside
        · obtain ⟨after, walkedOther, alongsideFinal⟩ := walk extension forest symbols walked extra
            alongside (listed id member) (List.forall_mem_nil _) (apart id member same)
          rw [← Nat.add_assoc, ← sizes] at walkedOther
          exact ⟨progress, after, walkedOther, fun isDone => isDone, alongsideFinal⟩)
      opened
  have passed : second.pass = (own, after) := by
    have resolved := resolveModules_eq_of_visitsAll visited opened.sinceExtended
    rw [← alongside.modules] at resolved
    exact resolved
  rw [passed]
  exact ⟨ends, alongsideFinal⟩

/-- Where a pass finds nothing left to do, further passes with the declaration change no earlier
node. -/
theorem passesWithin_idle (alongside : Alongside base extended host first second)
    (listed : ∀ id ∈ first.modules, base.Present id)
    (apart : ∀ id ∈ first.modules, id ≠ host → ¬ Relation.ReflTransGen base.Holds id host)
    (idle : first.Idle .done) (count : Nat) :
    Alongside base extended host first (passesWithin count second).2 := by
  induction count generalizing second with
  | zero => exact alongside
  | succ count ih =>
    have passed := (alongside.pass extension forest symbols acyclic listed apart).2
    rw [idle] at passed
    have next : Alongside base extended host first second.pass.2 :=
      ⟨passed.since, passed.sinceExtended, passed.content, passed.names, passed.modules,
        passed.importable, passed.importsPresent⟩
    rw [passesWithin]
    cases ended : second.pass with
    | mk progress after =>
      rw [ended] at next
      cases progress with
      | done => exact next
      | pending => exact ih next

/-- Passes are made alongside, also where the declaration asks for more of them. -/
theorem passesWithin (alongside : Alongside base extended host first second)
    (placed : first.WellPlaced) (listed : ∀ id ∈ first.modules, base.Present id)
    (apart : ∀ id ∈ first.modules, id ≠ host → ¬ Relation.ReflTransGen base.Holds id host)
    (count : Nat) :
    Alongside base extended host (passesWithin count first).2 (passesWithin count second).2 := by
  induction count generalizing first second with
  | zero => exact alongside
  | succ count ih =>
    obtain ⟨ends, next⟩ := alongside.pass extension forest symbols acyclic listed apart
    have advances := pass_advances placed.acyclic
    have placedNext := advances.wellPlaced placed
    have idle := Idle.of_done placed
    rw [Resolution.passesWithin, Resolution.passesWithin]
    rw [← advances.modules] at listed apart
    cases passed : first.pass with
    | mk progress after =>
      cases passedOther : second.pass with
      | mk own afterOther =>
        rw [passed] at ends next placedNext idle listed apart
        rw [passedOther] at ends next
        cases own with
        | done =>
          cases ends rfl
          exact next
        | pending =>
          cases progress with
          | done =>
            exact next.passesWithin_idle extension forest symbols acyclic listed apart (idle rfl)
              count
          | pending => exact ih next placedNext listed apart

end Passes

end Alongside

section Runs

variable {base extended : Store} {host decl : NodeId} {name : Name} {modules : List NodeId}

theorem importableModules_eq (extension : base.Extends extended host decl name)
    (listed : ∀ id ∈ modules, base.Present id) :
    importableModules extended modules = importableModules base modules := by
  have entries : ∀ id ∈ modules, ((extended.module? id).map fun scope => (scope.name, id)) =
      (base.module? id).map fun scope => (scope.name, id) := by
    intro id member
    by_cases same : id = host
    · obtain ⟨scope, entered, found, foundExtended, enters⟩ := extension.exists_modules
      rw [same, Store.module?_eq_some_iff.mpr found, Store.module?_eq_some_iff.mpr foundExtended,
        Option.map_some, Option.map_some, enters.name]
    · rw [Store.module?, Store.module?, extension.content?_eq (listed id member) same]
  rw [importableModules, importableModules, List.filterMap_congr entries]

/-- Both resolutions begin alongside each other. -/
theorem alongside_ofModules (extension : base.Extends extended host decl name) (names : NameTable)
    (listed : ∀ id ∈ modules, base.Present id) (budget : Budget) :
    Alongside base extended host ((ofModules base names modules).withBudget budget)
      ((ofModules extended names modules).withBudget budget) where
  since := .refl base
  sinceExtended := .refl extended
  content := extension.content?_eq
  names := rfl
  modules := rfl
  importable := importableModules_eq extension listed
  importsPresent := by
    intro entry member
    obtain ⟨id, inList, known⟩ := List.mem_filterMap.mp (List.mem_reverse.mp member)
    obtain ⟨scope, -, rfl⟩ := Option.map_eq_some_iff.mp known
    exact listed id inList

/-- A declaration that is put into a listed module, under a name by which no earlier reference is
looked up, disturbs nothing: whatever becomes of it, after a run with any budget every earlier node
reads as it does after the run without it. Of the module only the lists that have the declaration
are different. -/
theorem run_undisturbed (extension : base.Extends extended host decl name) (forest : base.Forest)
    (symbols : base.SymbolsPresent) (acyclic : extended.Acyclic) (names : NameTable)
    (lists : (ofModules base names modules).ListsModules)
    (apart : ∀ outer ∈ modules, ∀ inner ∈ modules, ¬ Relation.TransGen base.Holds outer inner)
    (hosts : host ∈ modules) (budget : Budget) :
    (∀ id, base.Present id → id ≠ host →
      ((ofModules extended names modules).withBudget budget).run.2.store.get? id =
        ((ofModules base names modules).withBudget budget).run.2.store.get? id) ∧
    ∃ scope entered span,
      ((ofModules base names modules).withBudget budget).run.2.store.get? host =
        some ⟨.module scope, span⟩ ∧
      ((ofModules extended names modules).withBudget budget).run.2.store.get? host =
        some ⟨.module entered, span⟩ ∧
      entered.name = scope.name ∧ entered.imports = scope.imports := by
  have listed : ∀ id ∈ modules, base.Present id :=
    fun id member => present_of_kind? (kind?_of_module? (lists id member))
  have elsewhere : ∀ id ∈ modules, id ≠ host → ¬ Relation.ReflTransGen base.Holds id host := by
    intro id member different reached
    rcases Relation.reflTransGen_iff_eq_or_transGen.mp reached with same | nested
    · exact different same.symm
    · exact apart id member host hosts nested
  have alongside : Alongside base extended host
      ((ofModules base names modules).withBudget budget).passesOfRun.2
      ((ofModules extended names modules).withBudget budget).passesOfRun.2 :=
    (alongside_ofModules extension names listed budget).passesWithin extension forest symbols
      acyclic (wellPlaced_of_forest forest lists) listed elsewhere (max budget.maxPasses 1)
  rw [run_store, run_store]
  refine ⟨?_, ?_⟩
  · intro id old different
    have same := alongside.content old different
    obtain ⟨content, found⟩ := Option.isSome_iff_exists.mp (alongside.since.present_iff.mpr old)
    rw [found] at same
    rw [Store.get?_of_content? found, Store.get?_of_content? same,
      alongside.span_eq extension old]
  · obtain ⟨scope, entered, found, foundOther, enters⟩ := alongside.exists_modules extension
    refine ⟨scope, entered, _, Store.get?_of_content? found, ?_, enters.name, enters.imports⟩
    rw [← alongside.span_eq extension (listed host hosts)]
    exact Store.get?_of_content? foundOther

end Runs

/-- A cover that names a later cover, a variable, a module of these, and more nodes. -/
def moduleWith (scope : Module) (more : List Node) : Store :=
  ⟨#[⟨.typeRef { name := ⟨2⟩ }, ⟨10, 15⟩⟩,
    ⟨.cover { header := { name := ⟨1⟩ }, fromType := some ⟨0⟩ }, ⟨0, 15⟩⟩,
    ⟨.typeRef { name := ⟨3⟩ }, ⟨28, 31⟩⟩,
    ⟨.cover { header := { name := ⟨2⟩ }, fromType := some ⟨2⟩ }, ⟨16, 31⟩⟩,
    ⟨.variable { header := { name := ⟨4⟩ } }, ⟨32, 37⟩⟩,
    ⟨.module scope, ⟨0, 60⟩⟩] ++ more.toArray⟩

def calm : Store :=
  moduleWith
    { name := ⟨5⟩
      declarations := [⟨1⟩, ⟨3⟩, ⟨4⟩]
      symbols := [(⟨1⟩, ⟨1⟩), (⟨2⟩, ⟨3⟩), (⟨4⟩, ⟨4⟩)] } []

/-- Between the covers there is another variable. Its type is a variable, and its value names
nothing. -/
def stirred : Store :=
  moduleWith
    { name := ⟨5⟩
      declarations := [⟨1⟩, ⟨8⟩, ⟨3⟩, ⟨4⟩]
      symbols := [(⟨1⟩, ⟨1⟩), (⟨2⟩, ⟨3⟩), (⟨6⟩, ⟨8⟩), (⟨4⟩, ⟨4⟩)] }
    [⟨.typeRef { name := ⟨4⟩ }, ⟨44, 49⟩⟩,
      ⟨.nameRef { path := [⟨7⟩] }, ⟨52, 59⟩⟩,
      ⟨.variable { header := { name := ⟨6⟩ }, type := some ⟨6⟩, value := some ⟨7⟩ }, ⟨38, 59⟩⟩]

theorem calm_extends : calm.Extends stirred ⟨5⟩ ⟨8⟩ ⟨6⟩ where
  kept := by
    rintro ⟨index⟩ node found different
    have inside : index < 6 := by
      by_contra outside
      rw [(calm.get?_eq_none_iff ⟨index⟩).mpr (Nat.le_of_not_lt outside)] at found
      cases found
    rcases index with _ | _ | _ | _ | _ | _ | index
    · exact found
    · exact found
    · exact found
    · exact found
    · exact found
    · exact absurd rfl different
    · omega
  enters :=
    ⟨_, _, _, rfl, rfl, rfl, rfl, ⟨[⟨1⟩], _, rfl, rfl⟩,
      ⟨[(⟨1⟩, ⟨1⟩), (⟨2⟩, ⟨3⟩)], _, rfl, rfl⟩⟩
  new := by
    have later : ∀ parent < stirred.size, 6 ≤ parent →
        ∀ child ∈ stirred.children ⟨parent⟩, 6 ≤ child.index := by decide
    intro id reached
    have beyond : 6 ≤ id.index := by
      induction reached with
      | refl => decide
      | tail _ held ih => exact later _ (Store.present_iff.mp held.present) ih _ held
    intro present
    exact absurd (Store.present_iff.mp present) (Nat.not_lt.mpr beyond)
  unused := by
    have all : ∀ node ∈ calm.nodes.toList, node.content.head? ≠ some ⟨6⟩ := by decide
    intro id content found
    obtain ⟨node, member, rfl⟩ := Store.exists_node found
    exact all node member

theorem calm_symbolsPresent : calm.SymbolsPresent := by
  have all : ∀ node ∈ calm.nodes.toList, ∀ symbol ∈ node.content.symbols,
      symbol.2.index < calm.size := by decide
  intro id content found symbol member
  obtain ⟨node, inStore, rfl⟩ := Store.exists_node found
  exact Store.present_iff.mpr (all node inStore symbol member)

def calmNames : NameTable :=
  .ofTexts ["Age", "Count", "Int", "width", "main", "ghost", "nowhere"]

/-- Without the variable the run ends after two passes. With it the run goes on until the budget is
spent, and fails; but the cover that waits for another one is resolved all the same. -/
theorem run_undisturbed_stirred :
    calm.Extends stirred ⟨5⟩ ⟨8⟩ ⟨6⟩ ∧ calm.Forest ∧ calm.SymbolsPresent ∧ stirred.Acyclic ∧
    ((ofModules calm calmNames [⟨5⟩]).withBudget ⟨4⟩).run.1 = ⟨2, .resolved⟩ ∧
    ((ofModules stirred calmNames [⟨5⟩]).withBudget ⟨4⟩).run.1 = ⟨4, .failed⟩ ∧
    ((ofModules stirred calmNames [⟨5⟩]).withBudget ⟨4⟩).run.2.store.get? ⟨1⟩ =
      ((ofModules calm calmNames [⟨5⟩]).withBudget ⟨4⟩).run.2.store.get? ⟨1⟩ ∧
    ((ofModules calm calmNames [⟨5⟩]).withBudget ⟨4⟩).run.2.store.isResolved ⟨1⟩ = true := by
  have forest : calm.Forest := Store.forest_of_earlier (by decide) (by decide)
  have acyclic : stirred.Acyclic :=
    Store.acyclic_of_descending (fun id => if id.index = 5 then 9 else id.index) (by decide)
  have apart : ∀ outer ∈ [(⟨5⟩ : NodeId)], ∀ inner ∈ [(⟨5⟩ : NodeId)],
      ¬ Relation.TransGen calm.Holds outer inner := by
    intro outer isOuter inner isInner
    rw [List.mem_singleton.mp isOuter, List.mem_singleton.mp isInner]
    exact forest.acyclic ⟨5⟩
  have undisturbed := (run_undisturbed calm_extends forest calm_symbolsPresent acyclic calmNames
    (by decide) apart List.mem_cons_self ⟨4⟩).1
  exact ⟨calm_extends, forest, calm_symbolsPresent, acyclic, by decide, by decide,
    undisturbed ⟨1⟩ (Store.present_iff.mpr (by decide)) (by decide), by decide⟩

end Declarations.Resolution
