import Declarations.Proofs.Extension
import Declarations.Proofs.Footprint
import Declarations.Proofs.Registration
import Declarations.Store.Declare
import Declarations.Store.Replace
import Mathlib.Data.List.Nodup
import Mathlib.Logic.Function.Basic

/-!
# Modules and their symbols

A module has its declarations in a list and their names in a table. Declarations are added and
exchanged in any order, with any nodes, and some of these edits are refused. All the same, a name
never stands for a node outside the list, and there are as many names as there are places in the
list. A node that is put into the list a second time may later keep a place but no name. Without
such a node, names and places go together: the name that was entered first stands for the node in
the first place, the second name for the node in the second, and so on.
-/

namespace Declarations

/-- What has been done to a module: the names that were entered, in order, and whether a node was
put into its list that was already there. -/
structure Ledger where
  names : List Name := []
  repeats : Bool := false
  deriving DecidableEq, Repr

/-- The ledger with more names, and with a node that was already there if `again` is true. -/
def Ledger.enter (ledger : Ledger) (names : List Name) (again : Bool) : Ledger where
  names := ledger.names ++ names
  repeats := ledger.repeats || again

namespace Module

variable {scope changed : Module} {ledger : Ledger} {name : Name} {id : NodeId}

/-- The table and the list of a module are in step, and agree with what was done to it. -/
structure InStep (scope : Module) (ledger : Ledger) : Prop where
  names : scope.symbols.map Prod.fst = ledger.names
  distinct : ledger.names.Nodup
  /-- A name stands for a node of the list. -/
  targets : ∀ symbol ∈ scope.symbols, symbol.2 ∈ scope.declarations
  counts : scope.symbols.length = scope.declarations.length
  imports : scope.imports.Nodup
  /-- Names and places go together, unless a node was put where it was already. -/
  paired : ledger.repeats = false →
    scope.symbols.map Prod.snd = scope.declarations ∧ scope.declarations.Nodup

/-! ## What names stand for -/

theorem find?_eq_none_iff : scope.find? name = none ↔ name ∉ scope.symbols.map Prod.fst := by
  rw [find?, Option.map_eq_none_iff, List.find?_eq_none]
  constructor
  · intro unequal member
    obtain ⟨symbol, known, same⟩ := List.mem_map.mp member
    exact unequal symbol known (by simpa using same)
  · intro absent symbol known same
    exact absent (List.mem_map.mpr ⟨symbol, known, by simpa using same⟩)

/-- In a table without repeated names, every entry is found. -/
theorem find?_eq_some_iff (distinct : (scope.symbols.map Prod.fst).Nodup) :
    scope.find? name = some id ↔ (name, id) ∈ scope.symbols := by
  constructor
  · intro found
    obtain ⟨⟨key, target⟩, known, rfl⟩ := Option.map_eq_some_iff.mp found
    have same : key = name := by simpa using List.find?_some known
    subst same
    exact List.mem_of_find?_eq_some known
  · intro member
    cases found : scope.find? name with
    | none =>
      rw [find?_eq_none_iff] at found
      exact absurd (List.mem_map_of_mem member) found
    | some other =>
      obtain ⟨⟨key, target⟩, known, rfl⟩ := Option.map_eq_some_iff.mp found
      have same : key = name := by simpa using List.find?_some known
      have equal := List.inj_on_of_nodup_map distinct (List.mem_of_find?_eq_some known) member same
      rw [equal]

namespace InStep

theorem mem_declarations (inStep : scope.InStep ledger) (found : scope.find? name = some id) :
    id ∈ scope.declarations := by
  obtain ⟨symbol, member, rfl⟩ := mem_symbols_of_find? found
  exact inStep.targets symbol member

theorem find?_iff (inStep : scope.InStep ledger) :
    scope.find? name = some id ↔ (name, id) ∈ scope.symbols :=
  find?_eq_some_iff (inStep.names ▸ inStep.distinct)

theorem isSome_find?_iff (inStep : scope.InStep ledger) :
    (scope.find? name).isSome = true ↔ name ∈ ledger.names := by
  rw [← inStep.names, ← not_iff_not, ← find?_eq_none_iff]
  simp

/-- A name stands for the node in its own place. -/
theorem find?_eq_getElem? (inStep : scope.InStep ledger) (once : ledger.repeats = false)
    {place : Nat} (entered : ledger.names[place]? = some name) :
    scope.find? name = scope.declarations[place]? := by
  rw [← inStep.names, List.getElem?_map] at entered
  obtain ⟨symbol, known, rfl⟩ := Option.map_eq_some_iff.mp entered
  rw [← (inStep.paired once).1, List.getElem?_map, known]
  exact inStep.find?_iff.mpr (List.mem_of_getElem? known)

/-- No node has two names. -/
theorem name_unique (inStep : scope.InStep ledger) (once : ledger.repeats = false) {other : Name}
    (found : scope.find? name = some id) (foundOther : scope.find? other = some id) :
    name = other := by
  obtain ⟨pairs, apart⟩ := inStep.paired once
  rw [inStep.find?_iff] at found foundOther
  have distinct : (scope.symbols.map Prod.snd).Nodup := pairs ▸ apart
  have equal := List.inj_on_of_nodup_map distinct found foundOther rfl
  exact congrArg Prod.fst equal

/-! ## What the edits of a module keep -/

theorem start (name : Name) : InStep { name := name } {} where
  names := rfl
  distinct := List.nodup_nil
  targets _ member := absurd member List.not_mem_nil
  counts := rfl
  imports := List.nodup_nil
  paired _ := ⟨rfl, List.nodup_nil⟩

theorem declare (inStep : scope.InStep ledger) (isNew : scope.find? name = none) (id : NodeId) :
    (scope.declare name id).InStep (ledger.enter [name] (decide (id ∈ scope.declarations))) where
  names := by simp [Module.declare, Ledger.enter, inStep.names]
  distinct := by
    rw [find?_eq_none_iff, inStep.names] at isNew
    exact inStep.distinct.append (List.nodup_singleton name) (by simpa using isNew)
  targets symbol member := by
    rcases List.mem_append.mp member with earlier | last
    · exact List.mem_append_left _ (inStep.targets symbol earlier)
    · rw [List.mem_singleton.mp last]
      exact List.mem_append_right _ List.mem_cons_self
  counts := by simp [Module.declare, inStep.counts]
  imports := inStep.imports
  paired once := by
    obtain ⟨onceBefore, absent⟩ : ledger.repeats = false ∧ id ∉ scope.declarations := by
      simpa [Ledger.enter] using once
    obtain ⟨pairs, apart⟩ := inStep.paired onceBefore
    refine ⟨by simp [Module.declare, pairs], ?_⟩
    exact apart.append (List.nodup_singleton id) (by simpa using absent)

theorem addImport (inStep : scope.InStep ledger) (imported : Name) :
    (scope.addImport imported).InStep ledger := by
  unfold Module.addImport
  split
  · exact inStep
  · next absent =>
    have apart : (scope.imports ++ [imported]).Nodup :=
      inStep.imports.append (List.nodup_singleton imported) (by simpa using absent)
    exact { inStep with imports := apart }

end InStep

/-- The first place of the old node goes to the new one, and so do all its names. -/
theorem replace?_cases {old new : NodeId} (replaced : scope.replace? old new = some changed) :
    ∃ early late, scope.declarations = early ++ old :: late ∧
      changed = { scope with
        declarations := early ++ new :: late
        symbols := scope.symbols.map fun symbol =>
          if symbol.2 = old then (symbol.1, new) else symbol } := by
  unfold replace? at replaced
  split at replaced
  · next listed =>
    obtain ⟨early, late, split, isFirst⟩ := List.eq_append_cons_of_mem listed
    refine ⟨early, late, split, ?_⟩
    rw [split, List.replace_append_right isFirst, List.replace_cons_self] at replaced
    exact (Option.some.inj replaced).symm
  · cases replaced

/-- Whether an exchange puts a node into the list that stays there in another place. -/
def repeatedBy (scope : Module) (old new : NodeId) : Bool :=
  new != old && decide (new ∈ scope.declarations)

/-- An exchanged node takes over the names and the place of the old one. -/
theorem InStep.replace {old new : NodeId} (inStep : scope.InStep ledger)
    (replaced : scope.replace? old new = some changed) :
    changed.InStep (ledger.enter [] (scope.repeatedBy old new)) := by
  obtain ⟨early, late, split, rfl⟩ := replace?_cases replaced
  have targets := inStep.targets
  have counts := inStep.counts
  have paired := inStep.paired
  rw [split] at targets counts paired
  refine ⟨?_, ?_, ?_, ?_, inStep.imports, ?_⟩
  · rw [Ledger.enter, List.append_nil, ← inStep.names, List.map_map]
    apply List.map_congr_left
    intro symbol member
    simp only [Function.comp_apply]
    split <;> rfl
  · rw [Ledger.enter, List.append_nil]
    exact inStep.distinct
  · intro symbol member
    obtain ⟨before, known, rfl⟩ := List.mem_map.mp member
    by_cases retargeted : before.2 = old
    · simp [retargeted]
    · rw [if_neg retargeted]
      have listed := targets before known
      simp only [List.mem_append, List.mem_cons, retargeted, false_or] at listed ⊢
      exact listed.imp_right Or.inr
  · simpa using counts
  · intro once
    obtain ⟨onceBefore, unrepeated⟩ :
        ledger.repeats = false ∧ scope.repeatedBy old new = false := by
      simpa [Ledger.enter] using once
    obtain ⟨pairs, apart⟩ := paired onceBefore
    obtain ⟨absent, apartRest⟩ := List.nodup_cons.mp (List.nodup_middle.mp apart)
    have newAbsent : new ∉ early ++ late := by
      by_cases same : new = old
      · rw [same]
        exact absent
      · have unlisted : new ∉ early ++ old :: late := by
          simpa [repeatedBy, same, split] using unrepeated
        intro member
        exact unlisted (by simpa [same] using member)
    refine ⟨?_, List.nodup_middle.mpr (List.nodup_cons.mpr ⟨newAbsent, apartRest⟩)⟩
    -- the table follows the list, so the old node has one name, in its own place
    have others : ∀ id ∈ early ++ late, (if id = old then new else id) = id := by
      intro id member
      apply if_neg
      rintro rfl
      exact absent member
    calc (scope.symbols.map fun symbol => if symbol.2 = old then (symbol.1, new) else symbol).map
          Prod.snd
        = (scope.symbols.map Prod.snd).map fun id => if id = old then new else id := by
          rw [List.map_map, List.map_map]
          apply List.map_congr_left
          intro symbol member
          simp only [Function.comp_apply]
          split <;> rfl
      _ = early ++ new :: late := by
          have inEarly := fun id member => others id (List.mem_append_left late member)
          have inLate := fun id member => others id (List.mem_append_right early member)
          rw [pairs, List.map_append, List.map_cons, if_pos rfl, List.map_congr_left inEarly,
            List.map_congr_left inLate, List.map_id', List.map_id']

end Module

namespace Store

variable {store : Store} {moduleId parent old new : NodeId}

/-! ## What the edits of a store do to its modules -/

theorem module?_modifyModule (store : Store) (changed id : NodeId) (f : Module → Module) :
    (store.modifyModule changed f).module? id =
      if changed = id then (store.module? id).map f else store.module? id := by
  rw [modifyModule, module?, module?, content?_modify]
  by_cases same : changed = id
  · rw [if_pos same, if_pos same]
    cases store.content? id with
    | none => rfl
    | some content => cases content <;> rfl
  · rw [if_neg same, if_neg same]

/-- A declaration enters a module under a new name, or it is refused and nothing changes. -/
theorem declare_cases (store : Store) (moduleId declId : NodeId) :
    (∃ error, (declare moduleId declId).apply store = (.error error, store)) ∨
    ∃ header scope, store.header? declId = some header ∧ store.module? moduleId = some scope ∧
      scope.find? header.name = none ∧ (declare moduleId declId).apply store =
        (.ok (), store.modifyModule moduleId (·.declare header.name declId)) := by
  cases declares : store.header? declId with
  | none => exact .inl ⟨.notADeclaration declId, by simp [declare, declares]⟩
  | some header =>
    cases known : store.module? moduleId with
    | none => exact .inl ⟨.notAModule moduleId, by simp [declare, declares, known]⟩
    | some scope =>
      cases taken : scope.find? header.name with
      | some existing =>
        exact .inl ⟨.duplicate existing, by simp [declare, declares, known, taken]⟩
      | none =>
        exact .inr ⟨header, scope, rfl, rfl, taken, by simp [declare, declares, known, taken]⟩

theorem addImport_cases (store : Store) (moduleId : NodeId) (imported : Name) :
    (∃ error, (addImport moduleId imported).apply store = (.error error, store)) ∨
    (addImport moduleId imported).apply store =
      (.ok (), store.modifyModule moduleId (·.addImport imported)) := by
  cases known : store.module? moduleId with
  | none => exact .inl ⟨.notAModule moduleId, by simp [addImport, known]⟩
  | some scope => exact .inr (by simp [addImport, known])

/-- A child is exchanged in the content of its parent, or nothing changes. -/
theorem replaceChild_cases (store : Store) (parent old new : NodeId) :
    (∃ error, (replaceChild parent old new).apply store = (.error error, store)) ∨
    ∃ content replaced, store.content? parent = some content ∧
      content.replace? old new = some replaced ∧
      (replaceChild parent old new).apply store = (.ok (), store.setContent parent replaced) := by
  cases found : store.content? parent with
  | none => exact .inl ⟨.childNotFound parent old, by simp [replaceChild, found]⟩
  | some content =>
    cases exchanged : content.replace? old new with
    | none =>
      cases content with
      | enum data => exact .inl ⟨.notReplaceable .enum, by simp [replaceChild, found]⟩
      | _ => exact .inl ⟨.childNotFound parent old, by simp [replaceChild, found, exchanged]⟩
    | some replaced =>
      refine .inr ⟨content, replaced, rfl, exchanged, ?_⟩
      cases content with
      | enum data => cases exchanged
      | _ => simp [replaceChild, found, exchanged]

/-- The parent of an exchanged child stays a module if it was one, and no other node becomes one. -/
theorem module?_setContent_replace {content replaced : Content}
    (found : store.content? parent = some content)
    (exchanged : content.replace? old new = some replaced) (id : NodeId) :
    (store.setContent parent replaced).module? id =
      if parent = id then (store.module? id).bind (·.replace? old new) else store.module? id := by
  rw [module?, module?, content?_setContent]
  by_cases same : parent = id
  · subst same
    rw [if_pos rfl, if_pos rfl, found]
    cases content with
    | module data =>
      obtain ⟨changed, moved, rfl⟩ := Option.map_eq_some_iff.mp exchanged
      exact moved.symm
    | cover data | element data =>
      simp only [Content.replace?] at exchanged
      split at exchanged
      · cases exchanged
        rfl
      · cases exchanged
    | «variable» data =>
      simp only [Content.replace?] at exchanged
      split at exchanged
      · cases exchanged
        rfl
      · split at exchanged
        · cases exchanged
          rfl
        · cases exchanged
    | enum data | literal value | typeRef data | nameRef data => cases exchanged
  · rw [if_neg same, if_neg same]

end Store

/-! ## Modules that are put together -/

/-- What is done to a store while modules are put together. A module is allocated without
declarations or as a copy of another one, and all other nodes as they are. -/
inductive ModuleEdit where
  | alloc (content : Content) (plain : content.kind ≠ .module) (span : Span)
  | allocModule (name : Name) (span : Span)
  | copy (id : NodeId) (span : Span)
  | declare (moduleId declId : NodeId)
  | addImport (moduleId : NodeId) (imported : Name)
  | replaceChild (parent old new : NodeId)

/-- A store in which modules are put together, with the ledger of each of them. -/
structure ModuleDraft where
  store : Store := .empty
  ledger : NodeId → Ledger := fun _ => {}

namespace ModuleDraft

/-- One edit. A copy of a module has the ledger of its original. -/
def after (draft : ModuleDraft) : ModuleEdit → ModuleDraft
  | .alloc content _ span => { draft with store := (draft.store.alloc content span).2 }
  | .allocModule name span =>
    let (moduleId, store) := draft.store.alloc (.module { name := name }) span
    { store := store, ledger := Function.update draft.ledger moduleId {} }
  | .copy id span =>
    match draft.store.content? id with
    | none => draft
    | some content =>
      let (copyId, store) := draft.store.alloc content span
      { store := store, ledger := Function.update draft.ledger copyId (draft.ledger id) }
  | .declare moduleId declId =>
    match (Store.declare moduleId declId).apply draft.store with
    | (.error _, store) => { draft with store := store }
    | (.ok (), store) =>
      let names := (draft.store.header? declId).toList.map Header.name
      let again := (draft.store.module? moduleId).any fun scope =>
        decide (declId ∈ scope.declarations)
      { store := store
        ledger := Function.update draft.ledger moduleId
          ((draft.ledger moduleId).enter names again) }
  | .addImport moduleId imported =>
    { draft with store := ((Store.addImport moduleId imported).apply draft.store).2 }
  | .replaceChild parent old new =>
    match (Store.replaceChild parent old new).apply draft.store with
    | (.error _, store) => { draft with store := store }
    | (.ok (), store) =>
      let again := (draft.store.module? parent).any (·.repeatedBy old new)
      { store := store
        ledger := Function.update draft.ledger parent ((draft.ledger parent).enter [] again) }

/-- All edits, one after another. -/
def afterAll (draft : ModuleDraft) (edits : List ModuleEdit) : ModuleDraft :=
  edits.foldl after draft

/-- Every module is in step with its ledger. -/
def InStep (draft : ModuleDraft) : Prop :=
  ∀ id scope, draft.store.module? id = some scope → scope.InStep (draft.ledger id)

variable {draft : ModuleDraft}

theorem inStep_start : InStep {} := by
  intro id scope known
  cases known

namespace InStep

/-- A new node that is a module needs a ledger that it is in step with. -/
theorem add (inStep : draft.InStep) (content : Content) (span : Span) (ledger : Ledger)
    (agrees : ∀ scope, content = .module scope → scope.InStep ledger) :
    InStep
      { store := (draft.store.alloc content span).2
        ledger := Function.update draft.ledger ⟨draft.store.size⟩ ledger } := by
  intro id scope known
  dsimp only at known ⊢
  rw [Store.module?_eq_some_iff, Store.content?_alloc] at known
  split at known
  · next isNew =>
    rw [isNew, Function.update_self]
    exact agrees scope (Option.some.inj known)
  · next isOld =>
    rw [Function.update_of_ne isOld]
    exact inStep id scope (Store.module?_eq_some_iff.mpr known)

theorem alloc (inStep : draft.InStep) {content : Content} (plain : content.kind ≠ .module)
    (span : Span) : (draft.after (.alloc content plain span)).InStep := by
  have added := inStep.add content span (draft.ledger ⟨draft.store.size⟩) fun scope isModule =>
    absurd (congrArg Content.kind isModule) plain
  rw [Function.update_eq_self] at added
  exact added

theorem allocModule (inStep : draft.InStep) (name : Name) (span : Span) :
    (draft.after (.allocModule name span)).InStep := by
  refine inStep.add (.module { name := name }) span {} ?_
  rintro scope ⟨⟩
  exact Module.InStep.start name

theorem copy (inStep : draft.InStep) (id : NodeId) (span : Span) :
    (draft.after (.copy id span)).InStep := by
  rw [ModuleDraft.after]
  cases original : draft.store.content? id with
  | none => exact inStep
  | some content =>
    refine inStep.add content span (draft.ledger id) ?_
    rintro scope rfl
    exact inStep id scope (Store.module?_eq_some_iff.mpr original)

/-- One module is changed, and its ledger with it. -/
theorem change (inStep : draft.InStep) {final : Store} {changedId : NodeId} {ledger : Ledger}
    (own : ∀ scope, final.module? changedId = some scope → scope.InStep ledger)
    (others : ∀ id, changedId ≠ id → final.module? id = draft.store.module? id) :
    InStep { store := final, ledger := Function.update draft.ledger changedId ledger } := by
  intro id scope known
  dsimp only at known ⊢
  by_cases same : changedId = id
  · subst same
    rw [Function.update_self]
    exact own scope known
  · rw [Function.update_of_ne (Ne.symm same)]
    rw [others id same] at known
    exact inStep id scope known

theorem declare (inStep : draft.InStep) (moduleId declId : NodeId) :
    (draft.after (.declare moduleId declId)).InStep := by
  rw [ModuleDraft.after]
  rcases draft.store.declare_cases moduleId declId with
    ⟨error, refused⟩ | ⟨header, scope, declares, known, isNew, entered⟩
  · rw [refused]
    exact inStep
  · simp only [entered, declares, known, Option.toList_some, List.map_singleton, Option.any_some]
    apply inStep.change
    · intro changed knownAfter
      rw [Store.module?_modifyModule, if_pos rfl, known] at knownAfter
      cases knownAfter
      exact (inStep moduleId scope known).declare isNew declId
    · intro id different
      rw [Store.module?_modifyModule, if_neg different]

theorem addImport (inStep : draft.InStep) (moduleId : NodeId) (imported : Name) :
    (draft.after (.addImport moduleId imported)).InStep := by
  rw [ModuleDraft.after]
  rcases draft.store.addImport_cases moduleId imported with ⟨error, refused⟩ | entered
  · rw [refused]
    exact inStep
  · rw [entered]
    intro id scope known
    dsimp only at known ⊢
    rw [Store.module?_modifyModule] at known
    split at known
    · obtain ⟨before, knownBefore, rfl⟩ := Option.map_eq_some_iff.mp known
      exact (inStep id before knownBefore).addImport imported
    · exact inStep id scope known

theorem replaceChild (inStep : draft.InStep) (parent old new : NodeId) :
    (draft.after (.replaceChild parent old new)).InStep := by
  rw [ModuleDraft.after]
  rcases draft.store.replaceChild_cases parent old new with
    ⟨error, refused⟩ | ⟨content, replaced, found, exchanged, entered⟩
  · rw [refused]
    exact inStep
  · simp only [entered]
    apply inStep.change
    · intro changed knownAfter
      rw [Store.module?_setContent_replace found exchanged, if_pos rfl] at knownAfter
      obtain ⟨scope, known, moved⟩ := Option.bind_eq_some_iff.mp knownAfter
      rw [known, Option.any_some]
      exact (inStep parent scope known).replace moved
    · intro id different
      rw [Store.module?_setContent_replace found exchanged, if_neg different]

/-- What every edit keeps. -/
theorem after (inStep : draft.InStep) (edit : ModuleEdit) : (draft.after edit).InStep := by
  cases edit with
  | alloc content plain span => exact inStep.alloc plain span
  | allocModule name span => exact inStep.allocModule name span
  | copy id span => exact inStep.copy id span
  | declare moduleId declId => exact inStep.declare moduleId declId
  | addImport moduleId imported => exact inStep.addImport moduleId imported
  | replaceChild parent old new => exact inStep.replaceChild parent old new

theorem afterAll (inStep : draft.InStep) (edits : List ModuleEdit) :
    (draft.afterAll edits).InStep := by
  induction edits generalizing draft with
  | nil => exact inStep
  | cons edit edits ih => exact ih (inStep.after edit)

end InStep

end ModuleDraft

namespace Resolution

/-- The walks of nodes end when they may go deeper than any of the nodes has nodes below it. -/
theorem exists_resolveAll {base : Store} (acyclic : base.Acyclic) {levels : Nat} {path : Path}
    {ids : List NodeId} {start : Resolution} (since : base.Advances start.store)
    (enough : ∀ id ∈ ids, base.rank id < levels) :
    ∃ progress final,
      resolveAll (resolveWithin levels path) ids start = some (progress, final) := by
  have total : ∀ id ∈ ids, ∀ start : Resolution, base.Advances start.store →
      ∃ progress final, Walks levels path id start progress final ∧
        base.Advances final.store := by
    intro id member start reached
    obtain ⟨progress, final, walked⟩ := exists_walk acyclic reached (enough id member)
    exact ⟨progress, final, walked, reached.trans walked.advances.store⟩
  obtain ⟨progress, final, visits, -⟩ :=
    VisitsAll.exists_of (fun state => base.Advances state.store) total since
  exact ⟨progress, final, resolveAll_of_visitsAll visits⟩

/-- A pass comes by every declaration of a listed module. -/
theorem exists_passesBy {resolution : Resolution} {moduleId id : NodeId} {scope : Module}
    (acyclic : resolution.store.Acyclic) (listed : moduleId ∈ resolution.modules)
    (known : resolution.store.module? moduleId = some scope) (member : id ∈ scope.declarations) :
    ∃ state, resolution.PassesBy (Path.empty.push moduleId) id state := by
  obtain ⟨earlyModules, lateModules, modules⟩ := List.append_of_mem listed
  obtain ⟨early, late, declarations⟩ := List.append_of_mem member
  have since := advances_resolveModules acyclic earlyModules
  have begun := Store.module?_eq_some_iff.mp known
  have found := Store.module?_eq_some_iff.mp ((since.store.module?_eq moduleId).trans known)
  have stages : (Content.module scope).stages = [] ++ (early ++ id :: late) :: [] := by
    rw [← declarations]
    rfl
  -- the module is one level, and what it declares is below it
  have below : ∀ child ∈ early, resolution.store.rank child < resolution.store.size := by
    intro child inEarly
    have held : resolution.store.Holds moduleId child := by
      refine Store.holds_iff.mpr ⟨.module scope, begun, ?_⟩
      rw [Content.children, stages]
      simp [inEarly]
    exact Nat.lt_of_lt_of_le (acyclic.rank_lt held) (resolution.store.rank_le_size moduleId)
  obtain ⟨progress, reached, siblings⟩ := exists_resolveAll acyclic since.store below
  obtain ⟨levels, deep⟩ : ∃ levels, resolution.store.size = levels + 1 := by
    have inside := Store.index_lt_of_get? (Store.get?_of_content? begun)
    exact Nat.exists_eq_succ_of_ne_zero (by omega)
  refine ⟨reached, earlyModules, moduleId, lateModules, modules, ?_⟩
  rw [deep] at siblings ⊢
  exact .child found rfl stages rfl siblings .here

end Resolution

namespace ModuleDraft

/-- However modules are put together, each is in step with its ledger: names stand for nodes of the
list, of which there are as many, and the names entered are those that stand for something. What a
name stands for is walked by every pass over the module. And unless a node was put where it was
already, the names stand for the nodes in their places, and no node has two names. -/
theorem modules_in_step (edits : List ModuleEdit) {moduleId : NodeId} {scope : Module}
    (known : (afterAll {} edits).store.module? moduleId = some scope) :
    scope.InStep ((afterAll {} edits).ledger moduleId) ∧
    (∀ name, (scope.find? name).isSome = true ↔
      name ∈ ((afterAll {} edits).ledger moduleId).names) ∧
    (∀ name id, scope.find? name = some id → id ∈ scope.declarations ∧
      ∀ (resolution : Resolution) (calls : List Call),
        resolution.store = (afterAll {} edits).store → resolution.store.Acyclic →
        moduleId ∈ resolution.modules →
        ∃ state, (resolution.afterAll calls).PassesBy (Path.empty.push moduleId) id state) ∧
    (((afterAll {} edits).ledger moduleId).repeats = false →
      (∀ (place : Nat) name, ((afterAll {} edits).ledger moduleId).names[place]? = some name →
        scope.find? name = scope.declarations[place]?) ∧
      ∀ first second id, scope.find? first = some id → scope.find? second = some id →
        first = second) := by
  have inStep := inStep_start.afterAll edits moduleId scope known
  refine ⟨inStep, fun _ => inStep.isSome_find?_iff, ?_, ?_⟩
  · intro name id found
    have member := inStep.mem_declarations found
    refine ⟨member, ?_⟩
    intro resolution calls same acyclic listed
    have reached := (Resolution.stable_advances acyclic).afterAll (.refl resolution) calls
    apply Resolution.exists_passesBy (reached.store.acyclic acyclic) (reached.modules ▸ listed) ?_
      member
    rw [reached.store.module?_eq, same]
    exact known
  · intro once
    exact ⟨fun _ _ entered => inStep.find?_eq_getElem? once entered,
      fun _ _ _ found foundOther => inStep.name_unique once found foundOther⟩

/-- A module gets two variables, and then a cover in the place of the first. A copy that was made
before gets the cover twice. Four edits are refused, and one of two equal imports does nothing. -/
def exchanges : List ModuleEdit :=
  [.alloc (.variable { header := { name := ⟨1⟩ } }) (by decide) ⟨0, 5⟩,
    .alloc (.variable { header := { name := ⟨2⟩ } }) (by decide) ⟨6, 11⟩,
    .alloc (.cover { header := { name := ⟨3⟩ } }) (by decide) ⟨12, 20⟩,
    .allocModule ⟨4⟩ ⟨0, 20⟩,
    .declare ⟨3⟩ ⟨0⟩, .declare ⟨3⟩ ⟨0⟩, .declare ⟨3⟩ ⟨3⟩, .copy ⟨3⟩ ⟨21, 30⟩,
    .addImport ⟨3⟩ ⟨5⟩, .addImport ⟨3⟩ ⟨5⟩, .addImport ⟨2⟩ ⟨5⟩,
    .declare ⟨3⟩ ⟨1⟩, .replaceChild ⟨3⟩ ⟨0⟩ ⟨2⟩, .replaceChild ⟨3⟩ ⟨0⟩ ⟨2⟩,
    .replaceChild ⟨4⟩ ⟨0⟩ ⟨2⟩, .declare ⟨4⟩ ⟨2⟩]

set_option maxRecDepth 2000 in
/-- The name of the first variable stands for the cover, which every pass over the module walks. In
the copy the cover has two names. -/
theorem modules_in_step_exchanges :
    ∃ scope, (afterAll {} exchanges).store.module? ⟨3⟩ = some scope ∧
      scope.imports = [⟨5⟩] ∧ scope.declarations = [⟨2⟩, ⟨1⟩] ∧
      (afterAll {} exchanges).ledger ⟨3⟩ = { names := [⟨1⟩, ⟨2⟩] } ∧
      (afterAll {} exchanges).ledger ⟨4⟩ = { names := [⟨1⟩, ⟨3⟩], repeats := true } ∧
      scope.find? ⟨1⟩ = some ⟨2⟩ ∧ (∀ name, scope.find? name = some ⟨2⟩ → name = ⟨1⟩) ∧
      ∃ state, Resolution.PassesBy
        (Resolution.ofModules (afterAll {} exchanges).store .initial [⟨3⟩, ⟨4⟩]).pass.2
        (Path.empty.push ⟨3⟩) ⟨2⟩ state := by
  have acyclic : (afterAll {} exchanges).store.Acyclic := Store.acyclic_of_earlier (by decide)
  obtain ⟨-, -, walked, placed⟩ := @modules_in_step exchanges ⟨3⟩ _ rfl
  obtain ⟨places, unique⟩ := placed (by decide)
  refine ⟨_, rfl, rfl, rfl, by decide, by decide, places 0 ⟨1⟩ rfl, ?_, ?_⟩
  · intro name found
    exact unique name ⟨1⟩ ⟨2⟩ found (places 0 ⟨1⟩ rfl)
  · exact (walked ⟨1⟩ ⟨2⟩ (places 0 ⟨1⟩ rfl)).2 _ [.pass] rfl acyclic (by decide)

end ModuleDraft

end Declarations
