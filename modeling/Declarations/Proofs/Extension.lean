import Declarations.Proofs.Locality

/-!
# Stores with one declaration more

A store gets one declaration more: its nodes are new, and a module has it among its declarations and
its symbols, under a name by which no earlier reference is looked up. A state of a resolution of the
one store stands alongside a state of a resolution of the other when the earlier nodes read the
same. Then earlier references are looked up and judged alike, wherever they stand.
-/

namespace Declarations

/-- The name by which a reference is looked up: that of the type, or the first of the path. -/
def Content.head? : Content → Option Name
  | .typeRef data => some data.name
  | .nameRef data => data.path.head?
  | _ => none

/-- The symbols of a module; other nodes have none. -/
def Content.symbols : Content → List (Name × NodeId)
  | .module data => data.symbols
  | _ => []

namespace Module

/-- The second module has a declaration more, somewhere among the others, and a symbol for it. -/
structure Enters (scope entered : Module) (symbol : Name) (decl : NodeId) : Prop where
  name : entered.name = scope.name
  imports : entered.imports = scope.imports
  declarations : ∃ before after,
    scope.declarations = before ++ after ∧ entered.declarations = before ++ decl :: after
  symbols : ∃ before after,
    scope.symbols = before ++ after ∧ entered.symbols = before ++ (symbol, decl) :: after

/-- Two modules in which every name but one is looked up alike. -/
structure Alike (hidden : Name) (first second : Module) : Prop where
  imports : second.imports = first.imports
  find? : ∀ {name}, name ≠ hidden → second.find? name = first.find? name

theorem Alike.refl (hidden : Name) (scope : Module) : scope.Alike hidden scope :=
  ⟨rfl, fun _ => rfl⟩

/-- A symbol more shows under its own name alone. -/
theorem Enters.alike {scope entered : Module} {symbol : Name} {decl : NodeId}
    (enters : scope.Enters entered symbol decl) : scope.Alike symbol entered where
  imports := enters.imports
  find? := by
    intro name different
    obtain ⟨before, after, earlier, later⟩ := enters.symbols
    have skipped : (symbol == name) = false := by simpa using Ne.symm different
    simp [Module.find?, earlier, later, List.find?_append, skipped]

/-- A module that may be missing is looked through alike. -/
theorem Alike.bind_find? {hidden name : Name} {first second : Option Module}
    (alike : Option.Rel (Alike hidden) first second) (different : name ≠ hidden) :
    second.bind (·.find? name) = first.bind (·.find? name) := by
  cases alike with
  | none => rfl
  | some alike => exact alike.find? different

theorem mem_symbols_of_find? {scope : Module} {name : Name} {id : NodeId}
    (found : scope.find? name = some id) : ∃ symbol ∈ scope.symbols, symbol.2 = id := by
  obtain ⟨symbol, known, same⟩ := Option.map_eq_some_iff.mp found
  exact ⟨symbol, List.mem_of_find?_eq_some known, same⟩

end Module

namespace Store

/-- Every symbol of a module stands for a node. -/
def SymbolsPresent (store : Store) : Prop :=
  ∀ {id content}, store.content? id = some content → ∀ symbol ∈ content.symbols,
    store.Present symbol.2

/-- The second store has the nodes of the first and others after them. Only the module `host` is
changed: it has got the declaration `decl`, which is new with all that is below it, under a name by
which no node of the first store is looked up. -/
structure Extends (store extended : Store) (host decl : NodeId) (name : Name) : Prop where
  kept : ∀ {id node}, store.get? id = some node → id ≠ host → extended.get? id = some node
  enters : ∃ scope entered span, store.get? host = some ⟨.module scope, span⟩ ∧
    extended.get? host = some ⟨.module entered, span⟩ ∧ scope.Enters entered name decl
  new : ∀ {id}, Relation.ReflTransGen extended.Holds decl id → ¬ store.Present id
  unused : ∀ {id content}, store.content? id = some content → content.head? ≠ some name

namespace Extends

variable {base extended : Store} {host decl : NodeId} {name : Name}
  (extension : base.Extends extended host decl name)

include extension

theorem exists_modules : ∃ scope entered, base.content? host = some (.module scope) ∧
    extended.content? host = some (.module entered) ∧ scope.Enters entered name decl := by
  obtain ⟨scope, entered, span, found, foundExtended, enters⟩ := extension.enters
  refine ⟨scope, entered, ?_, ?_, enters⟩
  · rw [content?, found, Option.map_some]
  · rw [content?, foundExtended, Option.map_some]

theorem content?_eq {id : NodeId} (old : base.Present id) (different : id ≠ host) :
    extended.content? id = base.content? id := by
  obtain ⟨node, found, -⟩ := Option.map_eq_some_iff.mp (Option.some_get old).symm
  rw [content?, content?, found, extension.kept found different]

theorem span_eq {id : NodeId} (old : base.Present id) : extended.span id = base.span id := by
  by_cases same : id = host
  · obtain ⟨scope, entered, span, found, foundExtended, -⟩ := extension.enters
    rw [same, Store.span, Store.span, found, foundExtended]
    rfl
  · obtain ⟨node, found, -⟩ := Option.map_eq_some_iff.mp (Option.some_get old).symm
    rw [Store.span, Store.span, found, extension.kept found same]

theorem present {id : NodeId} (old : base.Present id) : extended.Present id := by
  by_cases same : id = host
  · obtain ⟨scope, entered, -, foundExtended, -⟩ := extension.exists_modules
    rw [same, Present, foundExtended]
    rfl
  · rw [Present, extension.content?_eq old same]
    exact old

/-- No earlier node is lost. -/
theorem size_le : base.size ≤ extended.size := by
  by_contra smaller
  have old : base.Present ⟨extended.size⟩ := present_iff.mpr (Nat.lt_of_not_le smaller)
  exact Nat.lt_irrefl _ (present_iff.mp (extension.present old))

end Extends

end Store

/-- A module is never changed. -/
theorem Store.Advances.module?_eq {first second : Store} (advances : first.Advances second)
    (id : NodeId) : second.module? id = first.module? id := by
  cases found : first.content? id with
  | none => rw [module?, module?, found, advances.content?_eq_none.mpr found]
  | some content =>
    obtain ⟨later, foundLater, step⟩ := advances.forward found
    rw [module?, module?, found, foundLater]
    cases step with
    | same | bindType | bindName => rfl
    | resolve | giveUp => cases content <;> rfl

/-- All nodes of a path are nodes of a store. -/
def Path.Within (path : Path) (store : Store) : Prop := ∀ id ∈ path.nodes, store.Present id

namespace Resolution

/-- A state of a resolution of the first store and one of a resolution of the second, in which the
earlier nodes read the same. -/
structure Alongside (base extended : Store) (host : NodeId) (first second : Resolution) :
    Prop where
  since : base.Advances first.store
  sinceExtended : extended.Advances second.store
  content : ∀ {id}, base.Present id → id ≠ host →
    second.store.content? id = first.store.content? id
  names : second.names = first.names
  modules : second.modules = first.modules
  importable : second.importable = first.importable
  importsPresent : ∀ entry ∈ first.importable, base.Present entry.2

namespace Alongside

variable {base extended : Store} {host decl : NodeId} {name other : Name}
  {first second : Resolution} {path : Path} {id : NodeId}
  (alongside : Alongside base extended host first second)
  (extension : base.Extends extended host decl name)

include alongside extension

/-- The module with the new declaration stays as it was, on either side. -/
theorem exists_modules : ∃ scope entered, first.store.content? host = some (.module scope) ∧
    second.store.content? host = some (.module entered) ∧ scope.Enters entered name decl := by
  obtain ⟨scope, entered, found, foundExtended, enters⟩ := extension.exists_modules
  refine ⟨scope, entered, ?_, ?_, enters⟩
  · rw [← Store.module?_eq_some_iff, alongside.since.module?_eq]
    exact Store.module?_eq_some_iff.mpr found
  · rw [← Store.module?_eq_some_iff, alongside.sinceExtended.module?_eq]
    exact Store.module?_eq_some_iff.mpr foundExtended

/-- An earlier node reads the same, or it is the module that got the declaration. -/
theorem content?_cases (old : base.Present id) :
    second.store.content? id = first.store.content? id ∨
      ∃ scope entered, first.store.content? id = some (.module scope) ∧
        second.store.content? id = some (.module entered) ∧ scope.Alike name entered := by
  by_cases same : id = host
  · obtain ⟨scope, entered, found, foundLater, enters⟩ := alongside.exists_modules extension
    rw [same]
    exact .inr ⟨scope, entered, found, foundLater, enters.alike⟩
  · exact .inl (alongside.content old same)

theorem module?_alike (old : base.Present id) :
    Option.Rel (Module.Alike name) (first.store.module? id) (second.store.module? id) := by
  rcases alongside.content?_cases extension old with
    same | ⟨scope, entered, found, foundLater, alike⟩
  · have read : second.store.module? id = first.store.module? id := by
      rw [Store.module?, Store.module?, same]
    rw [read]
    cases first.store.module? id with
    | none => exact .none
    | some scope => exact .some (.refl name scope)
  · rw [Store.module?_eq_some_iff.mpr found, Store.module?_eq_some_iff.mpr foundLater]
    exact .some alike

theorem kind?_eq (old : base.Present id) : second.store.kind? id = first.store.kind? id := by
  rcases alongside.content?_cases extension old with same | ⟨scope, entered, found, foundLater, -⟩
  · rw [Store.kind?, Store.kind?, same]
  · rw [Store.kind?, Store.kind?, found, foundLater]
    rfl

theorem isResolved_eq (old : base.Present id) :
    second.store.isResolved id = first.store.isResolved id := by
  rcases alongside.content?_cases extension old with same | ⟨scope, entered, found, foundLater, -⟩
  · rw [Store.isResolved, Store.isResolved, same]
  · rw [Store.isResolved, Store.isResolved, found, foundLater]
    rfl

theorem span_eq (old : base.Present id) : second.store.span id = first.store.span id := by
  rw [alongside.sinceExtended.span, alongside.since.span, extension.span_eq old]

theorem enclosingModule?_eq (within : path.Within base) :
    path.enclosingModule? second.store = path.enclosingModule? first.store := by
  obtain ⟨nodes⟩ := path
  induction nodes with
  | nil => rfl
  | cons head rest ih =>
    have restWithin : Path.Within ⟨rest⟩ base := fun id member =>
      within id (List.mem_cons_of_mem head member)
    have push := Path.enclosingModule?_push ⟨rest⟩ head
    rw [Path.push] at push
    rw [push, push, alongside.kind?_eq extension (within head List.mem_cons_self), ih restWithin]

theorem bind_find?_eq (different : other ≠ name) (imported : Name) :
    (second.importedModule? imported).bind (·.find? other) =
      (first.importedModule? imported).bind (·.find? other) := by
  simp only [importedModule?, alongside.importable]
  cases known : first.importable.find? fun entry => entry.1 == imported with
  | none => rfl
  | some entry =>
    have old := alongside.importsPresent entry (List.mem_of_find?_eq_some known)
    exact Module.Alike.bind_find? (alongside.module?_alike extension old) different

theorem declared?_eq {scope entered : Module} (alike : scope.Alike name entered)
    (different : other ≠ name) :
    second.declared? entered other = first.declared? scope other := by
  have imported : (fun imported => (second.importedModule? imported).bind (·.find? other)) =
      fun imported => (first.importedModule? imported).bind (·.find? other) :=
    funext fun imported => alongside.bind_find?_eq extension different imported
  rw [declared?, declared?, alike.find? different, alike.imports, imported]

/-- A name other than the new one stands for the same. -/
theorem lookup_eq (within : path.Within base) (different : other ≠ name) :
    second.lookup path other = first.lookup path other := by
  have declared : ((second.scope? path).bind fun scope => second.declared? scope other) =
      (first.scope? path).bind fun scope => first.declared? scope other := by
    rw [scope?, scope?, alongside.enclosingModule?_eq extension within]
    cases enclosing : path.enclosingModule? first.store with
    | none => rfl
    | some id =>
      have old := within id (List.mem_of_find?_eq_some enclosing)
      have alike := alongside.module?_alike extension old
      rw [Option.bind_some, Option.bind_some]
      generalize first.store.module? id = scope, second.store.module? id = entered at alike
      cases alike with
      | none => rfl
      | some alike => exact alongside.declared?_eq extension alike different
  rw [lookup, lookup, declared, alongside.names]

omit extension in
/-- A name stands for an earlier node. -/
theorem present_of_lookup (symbols : base.SymbolsPresent) {decl : NodeId}
    (found : first.lookup path other = some (.decl decl)) : base.Present decl := by
  have inModule : ∀ {id scope}, first.store.module? id = some scope →
      scope.find? other = some decl → base.Present decl := by
    intro id scope known declares
    rw [alongside.since.module?_eq] at known
    obtain ⟨symbol, member, rfl⟩ := Module.mem_symbols_of_find? declares
    exact symbols (Store.module?_eq_some_iff.mp known) symbol member
  rw [lookup] at found
  cases declared : (first.scope? path).bind fun scope => first.declared? scope other with
  | none =>
    rw [declared] at found
    obtain ⟨builtin, -, wrong⟩ := Option.map_eq_some_iff.mp found
    cases wrong
  | some target =>
    rw [declared] at found
    cases found
    obtain ⟨scope, around, declares⟩ := Option.bind_eq_some_iff.mp declared
    obtain ⟨id, -, known⟩ := Option.bind_eq_some_iff.mp around
    rw [declared?] at declares
    cases own : scope.find? other with
    | some target =>
      rw [own] at declares
      cases declares
      exact inModule known own
    | none =>
      rw [own] at declares
      obtain ⟨imported, -, declares⟩ := List.exists_of_findSome?_eq_some declares
      obtain ⟨outer, imports, declares⟩ := Option.bind_eq_some_iff.mp declares
      obtain ⟨entry, -, knownOuter⟩ := Option.bind_eq_some_iff.mp imports
      exact inModule knownOuter declares

/-- What a path leads to depends on the kind of the first declaration and on its members. -/
theorem judgeQualified_eq {decl : NodeId} (old : base.Present decl) (span : Span) (head : Name)
    (rest : List Name) :
    second.judgeQualified span decl head rest = first.judgeQualified span decl head rest := by
  rcases alongside.content?_cases extension old with same | ⟨scope, entered, found, foundLater, -⟩
  · simp only [judgeQualified, pathText, alongside.names, same]
  · simp only [judgeQualified, pathText, alongside.names, found, foundLater]
    rcases rest with _ | ⟨element, _ | ⟨next, more⟩⟩ <;> rfl

/-- An earlier reference is judged alike. -/
theorem judge_eq (symbols : base.SymbolsPresent) (old : base.Present id)
    (within : path.Within base) {content : Content} (unused : content.head? ≠ some name) :
    second.judge path id content = first.judge path id content := by
  cases content with
  | typeRef data =>
    have different : data.name ≠ name := fun same => unused (congrArg some same)
    rw [judge, judge, alongside.span_eq extension old]
    simp only [judgeType, alongside.lookup_eq extension within different, alongside.names]
    cases found : first.lookup path data.name with
    | none => rfl
    | some symbol =>
      cases symbol with
      | builtin builtin => rfl
      | decl decl =>
        have oldDecl := alongside.present_of_lookup symbols found
        simp only [alongside.kind?_eq extension oldDecl, alongside.isResolved_eq extension oldDecl]
  | nameRef data =>
    rw [judge, judge, alongside.span_eq extension old]
    cases names : data.path with
    | nil => rfl
    | cons head rest =>
      have different : head ≠ name := by
        intro same
        apply unused
        rw [Content.head?, names, same]
        rfl
      simp only [judgeName, alongside.lookup_eq extension within different, pathText,
        alongside.names]
      cases found : first.lookup path head with
      | none => rfl
      | some symbol =>
        cases symbol with
        | builtin builtin => rfl
        | decl decl =>
          have oldDecl := alongside.present_of_lookup symbols found
          simp only [alongside.judgeQualified_eq extension oldDecl]
  | _ => rfl

end Alongside

end Resolution

end Declarations
