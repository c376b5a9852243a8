import Declarations.Proofs.Rules

/-!
# Trees in another order

The order of the declarations of a module, and the order in which modules are listed, do not enter
the rules of resolution: two resolutions that differ in nothing else look up and place alike, and
the same sets of declarations obey the rules.
-/

namespace Declarations

namespace Content

/-- The same node, with the declarations of a module in any order. -/
inductive Reordered : Content → Content → Prop
  | same (content : Content) : Reordered content content
  | module {data : Module} {declarations : List NodeId}
      (permuted : data.declarations.Perm declarations) :
      Reordered (.module data) (.module { data with declarations := declarations })

namespace Reordered

variable {first second : Content}

theorem symm (reordered : first.Reordered second) : second.Reordered first := by
  cases reordered with
  | same => exact .same first
  | @module data declarations permuted =>
    exact @Reordered.module { data with declarations := declarations } _ permuted.symm

theorem outline_eq (reordered : first.Reordered second) : second.outline = first.outline := by
  cases reordered <;> rfl

theorem kind_eq (reordered : first.Reordered second) : second.kind = first.kind := by
  cases reordered <;> rfl

/-- Only modules have an order that can change. -/
theorem eq_of_isMarkable (reordered : first.Reordered second)
    (markable : first.isMarkable = true) : second = first := by
  cases reordered with
  | same => rfl
  | module => cases markable

theorem isMarked_eq (reordered : first.Reordered second) : second.isMarked = first.isMarked := by
  cases reordered <;> rfl

theorem isGivenUp_eq (reordered : first.Reordered second) :
    second.isGivenUp = first.isGivenUp := by
  cases reordered <;> rfl

theorem mem_children_iff (reordered : first.Reordered second) (child : NodeId) :
    child ∈ second.children ↔ child ∈ first.children := by
  cases reordered with
  | same => exact Iff.rfl
  | module permuted =>
    simp only [children, stages, List.flatten_singleton]
    exact permuted.symm.mem_iff

/-- What stands in a stage stands in one of the other node, after the same earlier stages. -/
theorem stage (reordered : first.Reordered second) {before after : List (List NodeId)}
    {stage : List NodeId} (split : first.stages = before ++ stage :: after) {child : NodeId}
    (member : child ∈ stage) :
    ∃ own, second.stages = before ++ own :: after ∧ child ∈ own := by
  cases reordered with
  | same => exact ⟨stage, split, member⟩
  | @module data declarations permuted =>
    -- a module has only one stage
    rw [stages, List.singleton_eq_append_iff] at split
    rcases split with ⟨rfl, single⟩ | ⟨-, none⟩
    · cases single
      exact ⟨declarations, rfl, permuted.mem_iff.mp member⟩
    · cases none

end Reordered

end Content

namespace Store

/-- The same nodes, with the declarations of modules in any order. -/
structure Reordered (first second : Store) : Prop where
  span : ∀ id, second.span id = first.span id
  content : ∀ id, Option.Rel Content.Reordered (first.content? id) (second.content? id)

namespace Reordered

variable {first second : Store}

theorem missing_or_found (reordered : first.Reordered second) (id : NodeId) :
    (first.content? id = none ∧ second.content? id = none) ∨
      ∃ content other, first.content? id = some content ∧ second.content? id = some other ∧
        content.Reordered other := by
  have related := reordered.content id
  generalize first.content? id = found, second.content? id = foundOther at related
  cases related with
  | some same => exact Or.inr ⟨_, _, rfl, rfl, same⟩
  | none => exact Or.inl ⟨rfl, rfl⟩

theorem forward {id : NodeId} {content : Content} (reordered : first.Reordered second)
    (found : first.content? id = some content) :
    ∃ other, second.content? id = some other ∧ content.Reordered other := by
  rcases reordered.missing_or_found id with ⟨none, -⟩ | ⟨again, other, foundAgain, foundOther, same⟩
  · rw [found] at none
    cases none
  · rw [found] at foundAgain
    cases foundAgain
    exact ⟨other, foundOther, same⟩

theorem symm (reordered : first.Reordered second) : second.Reordered first where
  span id := (reordered.span id).symm
  content id := by
    rcases reordered.missing_or_found id with ⟨none, noneOther⟩ | ⟨_, _, found, foundOther, same⟩
    · rw [none, noneOther]
      exact .none
    · rw [found, foundOther]
      exact .some same.symm

theorem sameOutline (reordered : first.Reordered second) : first.SameOutline second := by
  intro id
  rcases reordered.missing_or_found id with ⟨none, noneOther⟩ | ⟨_, _, found, foundOther, same⟩
  · rw [none, noneOther]
  · rw [found, foundOther, Option.map_some, Option.map_some, same.outline_eq]

theorem holds_iff (reordered : first.Reordered second) {parent child : NodeId} :
    second.Holds parent child ↔ first.Holds parent child := by
  rw [Store.holds_iff, Store.holds_iff]
  constructor
  · rintro ⟨content, found, held⟩
    obtain ⟨other, foundOther, same⟩ := reordered.symm.forward found
    exact ⟨other, foundOther, (same.mem_children_iff child).mpr held⟩
  · rintro ⟨content, found, held⟩
    obtain ⟨other, foundOther, same⟩ := reordered.forward found
    exact ⟨other, foundOther, (same.mem_children_iff child).mpr held⟩

theorem present_iff (reordered : first.Reordered second) {id : NodeId} :
    second.Present id ↔ first.Present id := by
  rw [Present, Present]
  rcases reordered.missing_or_found id with ⟨none, noneOther⟩ | ⟨_, _, found, foundOther, -⟩
  · rw [none, noneOther]
  · rw [found, foundOther]
    exact Iff.rfl

theorem fresh (reordered : first.Reordered second) (fresh : first.Fresh) : second.Fresh := by
  intro id content found
  obtain ⟨other, foundOther, same⟩ := reordered.symm.forward found
  rw [← same.isMarked_eq]
  exact fresh foundOther

theorem isGivenUp_eq (reordered : first.Reordered second) (id : NodeId) :
    second.isGivenUp id = first.isGivenUp id := by
  rw [isGivenUp, isGivenUp]
  rcases reordered.missing_or_found id with ⟨none, noneOther⟩ | ⟨_, _, found, foundOther, same⟩
  · rw [none, noneOther]
  · rw [found, foundOther, Option.any_some, Option.any_some, same.isGivenUp_eq]

end Reordered

/-- A store in which one module lists its declarations in another order. -/
theorem reordered_modify {store : Store} {id : NodeId} {data : Module}
    {declarations : List NodeId} (found : store.content? id = some (.module data))
    (permuted : data.declarations.Perm declarations) :
    store.Reordered
      (store.modify id fun _ => .module { data with declarations := declarations }) where
  span other := store.span_modify id other _
  content other := by
    rw [content?_modify]
    by_cases own : id = other
    · subst own
      rw [if_pos rfl, found]
      exact .some (.module permuted)
    · rw [if_neg own]
      cases store.content? other with
      | none => exact .none
      | some content => exact .some (.same content)

end Store

namespace Resolution

theorem Parallel.symm {first second : Resolution} (parallel : first.Parallel second) :
    second.Parallel first where
  names := parallel.names.symm
  importable imported := (parallel.importable imported).symm
  store id := (parallel.store id).symm

theorem Parallel.trans {first second third : Resolution} (parallel : first.Parallel second)
    (next : second.Parallel third) : first.Parallel third where
  names := next.names.trans parallel.names
  importable imported := (next.importable imported).trans (parallel.importable imported)
  store id := (next.store id).trans (parallel.store id)

/-- The same resolution, with declarations and modules listed in any order. -/
structure Reordered (first second : Resolution) : Prop where
  store : first.store.Reordered second.store
  modules : first.modules.Perm second.modules
  parallel : first.Parallel second

namespace Reordered

variable {first second : Resolution} {resolved : Set NodeId} {path : Path} {id : NodeId}

theorem symm (reordered : first.Reordered second) : second.Reordered first where
  store := reordered.store.symm
  modules := reordered.modules.symm
  parallel := reordered.parallel.symm

theorem position (reordered : first.Reordered second) (position : first.Position path id) :
    second.Position path id := by
  induction position with
  | root listed => exact .root (reordered.modules.mem_iff.mp listed)
  | child _ held ih => exact .child ih (reordered.store.holds_iff.mpr held)

theorem settles (reordered : first.Reordered second) (settles : first.Settles resolved path id) :
    second.Settles resolved path id := by
  induction settles with
  | literal found =>
    obtain ⟨other, foundOther, same⟩ := reordered.store.forward found
    cases same
    exact .literal foundOther
  | declaration found declares member =>
    obtain ⟨other, foundOther, same⟩ := reordered.store.forward found
    exact .declaration foundOther (same.kind_eq ▸ declares) member
  | module found _ ih =>
    obtain ⟨other, foundOther, same⟩ := reordered.store.forward found
    cases same with
    | same => exact .module foundOther ih
    | module permuted =>
      exact .module foundOther fun child held => ih child (permuted.mem_iff.mpr held)
  | reference found isReference ready =>
    obtain ⟨other, foundOther, same⟩ := reordered.store.forward found
    cases same.eq_of_isMarkable (Content.isMarkable_of_isReference isReference)
    exact .reference foundOther isReference (reordered.parallel.ready_iff.mpr ready)

theorem reached (reordered : first.Reordered second) (reached : first.Reached resolved path id) :
    second.Reached resolved path id := by
  induction reached with
  | root listed => exact .root (reordered.modules.mem_iff.mp listed)
  | child _ found split earlier member ih =>
    obtain ⟨other, foundOther, same⟩ := reordered.store.forward found
    obtain ⟨own, splitOther, inOwn⟩ := same.stage split member
    exact .child ih foundOther splitOther
      (fun child early => reordered.settles (earlier child early)) inOwn

/-- The rules do not look at the order. -/
theorem closed (reordered : first.Reordered second) (closed : first.Closed resolved) :
    second.Closed resolved := by
  intro path id content reached found declares settles
  obtain ⟨other, foundOther, same⟩ := reordered.symm.store.forward found
  refine closed (reordered.symm.reached reached) foundOther (same.kind_eq ▸ declares) ?_
  intro child held
  exact reordered.symm.settles (settles child ((same.mem_children_iff child).mp held))

theorem closed_iff (reordered : first.Reordered second) :
    second.Closed resolved ↔ first.Closed resolved :=
  ⟨reordered.symm.closed, reordered.closed⟩

theorem wellPlaced (reordered : first.Reordered second) (placed : first.WellPlaced) :
    second.WellPlaced where
  acyclic := by
    have same : second.store.Holds = first.store.Holds := by
      funext parent child
      exact propext reordered.store.holds_iff
    rw [Store.Acyclic, same]
    exact placed.acyclic
  present position :=
    reordered.store.present_iff.mpr (placed.present (reordered.symm.position position))
  scope position other := by
    rw [reordered.store.sameOutline.enclosingModule?_eq,
      reordered.store.sameOutline.enclosingModule?_eq]
    exact placed.scope (reordered.symm.position position) (reordered.symm.position other)

theorem typeCount_eq (reordered : first.Reordered second) : second.typeCount = first.typeCount := by
  have same : second.reachableTypes = first.reachableTypes := by
    ext id
    have reachable : second.Reachable id ↔ first.Reachable id :=
      exists_congr fun path => ⟨reordered.symm.position, reordered.position⟩
    change (second.Reachable id ∧ _) ↔ (first.Reachable id ∧ _)
    rw [reachable, reordered.store.sameOutline.kind?_eq]
  rw [typeCount, typeCount, same]

end Reordered

/-! ## Modules listed in another order -/

/-- The listed modules have different names. -/
def DistinctNames (store : Store) (modules : List NodeId) : Prop :=
  (modules.map fun id => (store.module? id).map Module.name).Nodup

instance (store : Store) (modules : List NodeId) : Decidable (DistinctNames store modules) :=
  inferInstanceAs (Decidable (List.Nodup _))

/-- Among entries with different names it makes no difference which comes first. -/
theorem find?_eq_of_perm {first second : List (Name × NodeId)} (permuted : first.Perm second)
    (distinct : (first.map Prod.fst).Nodup) (name : Name) :
    (second.find? fun entry => entry.1 == name) = first.find? fun entry => entry.1 == name := by
  induction permuted with
  | nil => rfl
  | cons entry _ ih =>
    rw [List.find?_cons, List.find?_cons, ih (List.nodup_cons.mp distinct).2]
  | swap entry other rest =>
    have differ : other.1 ≠ entry.1 := by
      intro same
      exact (List.nodup_cons.mp distinct).1 (List.mem_cons.mpr (Or.inl same))
    simp only [List.find?_cons]
    cases own : entry.1 == name with
    | false => rfl
    | true =>
      cases again : other.1 == name with
      | false => rfl
      | true => exact absurd ((eq_of_beq again).trans (eq_of_beq own).symm) differ
  | trans permuted _ ih ihNext =>
    rw [ihNext ((permuted.map Prod.fst).nodup_iff.mp distinct), ih distinct]

theorem nodup_importableModules {store : Store} {modules : List NodeId}
    (distinct : DistinctNames store modules) :
    ((importableModules store modules).map Prod.fst).Nodup := by
  rw [importableModules, List.map_reverse, List.nodup_reverse, List.map_filterMap]
  have names : (fun id => ((store.module? id).map fun scope => (scope.name, id)).map Prod.fst) =
      id ∘ fun id => (store.module? id).map Module.name := by
    funext id
    rw [Option.map_map]
    rfl
  rw [names, ← List.filterMap_map]
  refine distinct.filterMap ?_
  intro found other name isFound isOther
  exact isFound.trans isOther.symm

/-- Listing distinct modules in another order, with their declarations in another order, gives the
same resolution in another order. -/
theorem reordered_ofModules {store other : Store} {modules others : List NodeId}
    (reordered : store.Reordered other) (permuted : modules.Perm others)
    (distinct : DistinctNames store modules) (names : NameTable) (budget otherBudget : Budget) :
    ((ofModules store names modules).withBudget budget).Reordered
      ((ofModules other names others).withBudget otherBudget) where
  store := reordered
  modules := permuted
  parallel :=
    { names := rfl
      store := reordered.sameOutline
      importable := by
        have moduleNames : ∀ id, (other.module? id).map (fun scope => (scope.name, id)) =
            (store.module? id).map fun scope => (scope.name, id) := by
          intro id
          have outlines := congrArg (Option.map fun scope : Module => (scope.name, id))
            (reordered.sameOutline.outline_module?_eq id)
          rw [Option.map_map, Option.map_map] at outlines
          exact outlines
        have same : importableModules other others = importableModules store others := by
          simp only [importableModules, moduleNames]
        have permutedEntries : (importableModules store modules).Perm
            (importableModules store others) :=
          (List.reverse_perm _).trans ((permuted.filterMap _).trans (List.reverse_perm _).symm)
        change ∀ imported, (importableModules other others).find? _ =
          (importableModules store modules).find? _
        intro imported
        rw [same]
        exact find?_eq_of_perm permutedEntries (nodup_importableModules distinct) imported }

end Resolution

end Declarations
