import Declarations.Proofs.Advance

/-!
# What a judgement depends on

How a reference is judged depends on little: on the module around it, on the names and the kinds of
declarations, and, for a type reference, on whether its declaration is resolved. The outline of a
node is what is left of it when the marks are taken off and the order of declarations is forgotten.
Resolutions whose stores have the same outline judge alike as far as the same types are resolved,
and a judgement that does not wait stands however the resolution advances.
-/

namespace Declarations

/-- A module without the list of its declarations, by which nothing is looked up. -/
def Module.outline (scope : Module) : Module := { scope with declarations := [] }

/-- A header without its mark. -/
def Header.outline (header : Header) : Header :=
  { header with flags := { header.flags with isResolved := false } }

namespace Content

/-- A node without its marks, and without the order of its declarations. -/
def outline : Content → Content
  | .module data => .module data.outline
  | .typeRef data => .typeRef { name := data.name }
  | .nameRef data => .nameRef { path := data.path }
  | content => content.mapHeader Header.outline

@[simp] theorem kind_outline (content : Content) : content.outline.kind = content.kind := by
  cases content <;> rfl

@[simp] theorem members?_outline (content : Content) :
    content.outline.members? = content.members? := by
  cases content <;> rfl

theorem Advances.outline_eq {first second : Content} (advances : first.Advances second) :
    second.outline = first.outline := by
  cases advances with
  | same | bindType | bindName => rfl
  | resolve | giveUp => cases first <;> rfl

end Content

namespace Store

/-- Two stores hold the same nodes up to marks and the order of declarations. -/
def SameOutline (first second : Store) : Prop :=
  ∀ id, (second.content? id).map Content.outline = (first.content? id).map Content.outline

theorem Advances.sameOutline {first second : Store} (advances : first.Advances second) :
    first.SameOutline second := by
  intro id
  cases found : first.content? id with
  | none => rw [advances.content?_eq_none.mpr found]
  | some content =>
    obtain ⟨later, foundLater, step⟩ := advances.forward found
    rw [foundLater, Option.map_some, Option.map_some, step.outline_eq]

/-- The outline of a module can be read off the outline of its node. -/
theorem outline_module? (store : Store) (id : NodeId) :
    (store.module? id).map Module.outline =
      ((store.content? id).map Content.outline).bind fun
        | .module data => some data
        | _ => none := by
  rw [module?]
  cases store.content? id with
  | none => rfl
  | some content => cases content <;> rfl

namespace SameOutline

variable {first second : Store}

theorem kind?_eq (same : first.SameOutline second) (id : NodeId) :
    second.kind? id = first.kind? id := by
  have mapped := congrArg (Option.map Content.kind) (same id)
  rw [Option.map_map, Option.map_map] at mapped
  have unfolded : Content.kind ∘ Content.outline = Content.kind :=
    funext Content.kind_outline
  rw [unfolded] at mapped
  exact mapped

theorem outline_module?_eq (same : first.SameOutline second) (id : NodeId) :
    (second.module? id).map Module.outline = (first.module? id).map Module.outline := by
  rw [outline_module?, outline_module?, same id]

theorem enclosingModule?_eq (same : first.SameOutline second) (path : Path) :
    path.enclosingModule? second = path.enclosingModule? first := by
  have kinds : second.kind? = first.kind? := funext same.kind?_eq
  rw [Path.enclosingModule?, Path.enclosingModule?, Path.enclosing?, Path.enclosing?, kinds]

end SameOutline

end Store

namespace Resolution

/-- Two resolutions between which no look-up can tell. -/
structure Parallel (first second : Resolution) : Prop where
  names : second.names = first.names
  importable : ∀ imported : Name,
    (second.importable.find? fun entry => entry.1 == imported) =
      first.importable.find? fun entry => entry.1 == imported
  store : first.store.SameOutline second.store

theorem Advances.parallel {first second : Resolution} (advances : first.Advances second) :
    first.Parallel second where
  names := advances.names
  importable _ := by rw [advances.importable]
  store := advances.store.sameOutline

namespace Parallel

variable {first second : Resolution}

theorem outline_importedModule?_eq (parallel : first.Parallel second) (imported : Name) :
    (second.importedModule? imported).map Module.outline =
      (first.importedModule? imported).map Module.outline := by
  simp only [importedModule?, parallel.importable imported]
  cases first.importable.find? fun entry => entry.1 == imported with
  | none => rfl
  | some entry => exact parallel.store.outline_module?_eq entry.2

/-- The symbols of an imported module do not depend on its declarations' order. -/
theorem bind_find?_eq (parallel : first.Parallel second) (imported name : Name) :
    (second.importedModule? imported).bind (·.find? name) =
      (first.importedModule? imported).bind (·.find? name) := by
  have outlines := parallel.outline_importedModule?_eq imported
  have forget : ∀ found : Option Module,
      (found.map Module.outline).bind (·.find? name) = found.bind (·.find? name) := by
    intro found
    cases found <;> rfl
  rw [← forget, outlines, forget]

theorem declared?_eq (parallel : first.Parallel second) (scope : Module) (name : Name) :
    second.declared? scope name = first.declared? scope name := by
  rw [declared?, declared?]
  have imports : (fun imported : Name => (second.importedModule? imported).bind (·.find? name)) =
      fun imported => (first.importedModule? imported).bind (·.find? name) :=
    funext fun imported => parallel.bind_find?_eq imported name
  rw [imports]

theorem lookup_eq (parallel : first.Parallel second) (path : Path) (name : Name) :
    second.lookup path name = first.lookup path name := by
  have scopes : (second.scope? path).map Module.outline =
      (first.scope? path).map Module.outline := by
    rw [scope?, scope?, parallel.store.enclosingModule?_eq]
    cases path.enclosingModule? first.store with
    | none => rfl
    | some id => exact parallel.store.outline_module?_eq id
  have forget : ∀ (resolution : Resolution) (found : Option Module),
      ((found.map Module.outline).bind fun scope => resolution.declared? scope name) =
        found.bind fun scope => resolution.declared? scope name := by
    intro resolution found
    cases found <;> rfl
  have decls : ((second.scope? path).bind fun scope => second.declared? scope name) =
      (first.scope? path).bind fun scope => first.declared? scope name := by
    rw [← forget second, scopes, forget second]
    congr 1
    funext scope
    exact parallel.declared?_eq scope name
  rw [lookup, lookup, decls, parallel.names]

theorem judgeQualified_eq (parallel : first.Parallel second) (span : Span) (decl : NodeId)
    (head : Name) (rest : List Name) :
    second.judgeQualified span decl head rest = first.judgeQualified span decl head rest := by
  have outlines := parallel.store decl
  simp only [judgeQualified, pathText, parallel.names]
  cases foundFirst : first.store.content? decl with
  | none =>
    rw [foundFirst] at outlines
    rw [Option.map_eq_none_iff.mp outlines]
  | some content =>
    rw [foundFirst] at outlines
    obtain ⟨other, foundSecond, equal⟩ := Option.map_eq_some_iff.mp outlines
    have kinds := congrArg Content.kind equal
    have members := congrArg Content.members? equal
    rw [Content.kind_outline, Content.kind_outline] at kinds
    rw [Content.members?_outline, Content.members?_outline] at members
    rw [foundSecond]
    -- only the kind and the members of the declaration are looked at
    rcases rest with _ | ⟨element, _ | ⟨next, more⟩⟩
    · cases content <;> cases other <;> cases kinds <;> rfl
    · cases content <;> cases other <;> cases kinds
      case enum.enum.refl data later =>
        have same : later.members = data.members := Option.some.inj members
        dsimp only
        rw [same]
      all_goals rfl
    · cases content <;> cases other <;> cases kinds <;> rfl

theorem judgeName_eq (parallel : first.Parallel second) (path : Path) (span : Span)
    (names : List Name) : second.judgeName path span names = first.judgeName path span names := by
  cases names with
  | nil => rfl
  | cons head rest =>
    simp only [judgeName, parallel.lookup_eq, parallel.judgeQualified_eq, pathText,
      parallel.names]

/-- Type references are judged alike where the same types are resolved. -/
theorem judgeType_eq (parallel : first.Parallel second)
    (types : ∀ decl, (first.store.kind? decl).any Kind.isTypeDecl = true →
      second.store.isResolved decl = first.store.isResolved decl)
    (path : Path) (span : Span) (name : Name) :
    second.judgeType path span name = first.judgeType path span name := by
  simp only [judgeType, parallel.lookup_eq, parallel.names, parallel.store.kind?_eq]
  cases first.lookup path name with
  | none => rfl
  | some symbol =>
    cases symbol with
    | builtin builtin => rfl
    | decl decl =>
      dsimp only
      cases kind : first.store.kind? decl with
      | none => rfl
      | some found =>
        dsimp only
        cases isType : found.isTypeDecl with
        | false => rfl
        | true => rw [types decl (by rw [kind]; exact isType)]

end Parallel

end Resolution

/-- The verdict on a target as a verdict on what is made of it. -/
def Verdict.map {α β : Type} (f : α → β) : Verdict α → Verdict β
  | .bind target => .bind (f target)
  | .wait reason => .wait reason
  | .reject report => .reject report

namespace Resolution

/-- Judge a reference that stands at the end of a path: bound, it becomes the content that the
verdict names. What is no reference is left as it is. -/
def judge (resolution : Resolution) (path : Path) (id : NodeId) : Content → Verdict Content
  | .typeRef reference =>
    (resolution.judgeType path (resolution.store.span id) reference.name).map fun target =>
      .typeRef { reference with target := some target }
  | .nameRef reference =>
    (resolution.judgeName path (resolution.store.span id) reference.path).map fun target =>
      .nameRef { reference with target := some target }
  | content => .bind content

/-- A reference may be bound before or after its verdict is given out. -/
theorem carryOut_map {α : Type} (resolution : Resolution) (id : NodeId) (bound : α → Content)
    (given : Content) (verdict : Verdict α) :
    resolution.carryOut id (fun content => content) given (verdict.map bound) =
      resolution.carryOut id bound given verdict := by
  cases verdict <;> rfl

/-- A bound reference is the reference with a mark, and is not given up by being bound. -/
theorem judge_bind {resolution : Resolution} {path : Path} {id : NodeId}
    {content bound : Content} (reference : content.isReference = true)
    (isOpen : content.isMarked = false)
    (judged : resolution.judge path id content = .bind bound) :
    content.Advances bound ∧ bound.isMarked = true ∧ bound.isGivenUp = content.isGivenUp := by
  cases content with
  | typeRef data =>
    rw [judge] at judged
    cases verdict : resolution.judgeType path (resolution.store.span id) data.name with
    | bind target =>
      rw [verdict] at judged
      cases judged
      exact ⟨.bindType target isOpen, rfl, rfl⟩
    | wait reason =>
      rw [verdict] at judged
      cases judged
    | reject report =>
      rw [verdict] at judged
      cases judged
  | nameRef data =>
    rw [judge] at judged
    cases verdict : resolution.judgeName path (resolution.store.span id) data.path with
    | bind target =>
      rw [verdict] at judged
      cases judged
      exact ⟨.bindName target isOpen, rfl, rfl⟩
    | wait reason =>
      rw [verdict] at judged
      cases judged
    | reject report =>
      rw [verdict] at judged
      cases judged
  | _ => cases reference

/-- A reference is given up with the report that its name stands for no type or for no value, at the
place of the reference. -/
theorem judge_reject_cases {resolution : Resolution} {path : Path} {id : NodeId}
    {content : Content} {report : Diagnostic}
    (judged : resolution.judge path id content = .reject report) :
    ∃ name found, report = .notAType (resolution.store.span id) name found ∨
      report = .notAValue (resolution.store.span id) name found := by
  cases content with
  | typeRef data =>
    simp only [judge, judgeType] at judged
    split at judged
    · cases judged
    · cases judged
    · split at judged
      · cases judged
        exact ⟨_, _, Or.inl rfl⟩
      · split at judged
        · cases judged
          exact ⟨_, _, Or.inl rfl⟩
        · split at judged <;> cases judged
  | nameRef data =>
    simp only [judge] at judged
    cases names : data.path with
    | nil =>
      rw [names] at judged
      cases judged
      exact ⟨_, _, Or.inr rfl⟩
    | cons head rest =>
      simp only [names, judgeName] at judged
      split at judged
      · cases judged
      · cases judged
        exact ⟨_, _, Or.inr rfl⟩
      · simp only [judgeQualified] at judged
        split at judged
        · cases judged
        · split at judged <;> cases judged
        · cases judged
          exact ⟨_, _, Or.inr rfl⟩
        · split at judged
          · cases judged
          · cases judged
            exact ⟨_, _, Or.inl rfl⟩
        · cases judged
  | _ => cases judged

section Steps

variable {resolution : Resolution} {path : Path} {id : NodeId} {content : Content}

theorem advances_bind {bound : Content} (found : resolution.store.content? id = some content)
    (reference : content.isReference = true) (isOpen : content.isMarked = false)
    (judged : resolution.judge path id content = .bind bound) :
    resolution.Advances (resolution.modify id fun _ => bound) := by
  apply advances_modify
  intro other foundOther
  rw [found] at foundOther
  cases foundOther
  exact (judge_bind reference isOpen judged).1

theorem isGivenUp_bind {bound : Content} (found : resolution.store.content? id = some content)
    (reference : content.isReference = true) (isOpen : content.isMarked = false)
    (judged : resolution.judge path id content = .bind bound) (other : NodeId) :
    (resolution.modify id fun _ => bound).store.isGivenUp other =
      resolution.store.isGivenUp other := by
  apply Store.isGivenUp_modify
  intro given foundGiven
  rw [found] at foundGiven
  cases foundGiven
  exact (judge_bind reference isOpen judged).2.2

theorem advances_giveUp (found : resolution.store.content? id = some content)
    (isOpen : content.isMarked = false) (report : Diagnostic) :
    resolution.Advances ((resolution.reportFatal report).modify id fun _ => content.givenUp) := by
  refine (advances_reportFatal resolution report).trans (advances_modify ?_)
  intro other foundOther
  rw [reportFatal, found] at foundOther
  cases foundOther
  exact .giveUp isOpen

/-- One reference more is given up. -/
theorem isGivenUp_giveUp (found : resolution.store.content? id = some content)
    (reference : content.isReference = true) (report : Diagnostic) (other : NodeId) :
    ((resolution.reportFatal report).modify id fun _ => content.givenUp).store.isGivenUp other =
        true ↔ resolution.store.isGivenUp other = true ∨ other = id := by
  change (resolution.store.modify id fun _ => content.givenUp).isGivenUp other = true ↔ _
  rw [Store.isGivenUp, Store.isGivenUp, Store.content?_modify]
  by_cases own : id = other
  · subst own
    simp [found, Content.isGivenUp_givenUp reference]
  · simp [own, Ne.symm own]

end Steps

theorem Parallel.judge_eq {first second : Resolution} (parallel : first.Parallel second)
    (spans : ∀ id, second.store.span id = first.store.span id)
    (types : ∀ decl, (first.store.kind? decl).any Kind.isTypeDecl = true →
      second.store.isResolved decl = first.store.isResolved decl)
    (path : Path) (id : NodeId) (content : Content) :
    second.judge path id content = first.judge path id content := by
  cases content with
  | typeRef data => rw [judge, judge, parallel.judgeType_eq types, spans]
  | nameRef data => rw [judge, judge, parallel.judgeName_eq, spans]
  | _ => rfl

/-- A judgement stands as long as the store does. -/
theorem Advances.judge_eq_of_store_eq {first second : Resolution}
    (advances : first.Advances second) (same : second.store = first.store) (path : Path)
    (id : NodeId) (content : Content) :
    second.judge path id content = first.judge path id content := by
  apply advances.parallel.judge_eq advances.store.span
  intro decl _
  rw [same]

/-- Of the place of a reference only the module around it matters. -/
theorem judge_congr_path {resolution : Resolution} {path other : Path}
    (enclosing : path.enclosingModule? resolution.store =
      other.enclosingModule? resolution.store) (id : NodeId) (content : Content) :
    resolution.judge path id content = resolution.judge other id content := by
  have lookups : resolution.lookup path = resolution.lookup other := by
    funext name
    rw [lookup, lookup, scope?, scope?, enclosing]
  cases content with
  | typeRef data => rw [judge, judge, judgeType, judgeType, lookups]
  | nameRef data =>
    rw [judge, judge]
    cases data.path with
    | nil => rfl
    | cons head rest => rw [judgeName, judgeName, lookups]
  | _ => rfl

/-- A verdict that does not wait stands when the resolution advances. -/
theorem Advances.judge_eq {first second : Resolution} (advances : first.Advances second)
    {path : Path} {id : NodeId} {content : Content}
    (decided : ∀ reason, first.judge path id content ≠ .wait reason) :
    second.judge path id content = first.judge path id content := by
  have parallel := advances.parallel
  cases content with
  | typeRef data =>
    rw [judge, judge, advances.store.span]
    congr 1
    simp only [judge, judgeType] at decided
    simp only [judgeType, parallel.lookup_eq, parallel.names, parallel.store.kind?_eq]
    cases found : first.lookup path data.name with
    | none => rfl
    | some symbol =>
      cases symbol with
      | builtin builtin => rfl
      | decl decl =>
        rw [found] at decided
        dsimp only at decided ⊢
        cases kind : first.store.kind? decl with
        | none => rfl
        | some found =>
          rw [kind] at decided
          dsimp only at decided ⊢
          cases isType : found.isTypeDecl with
          | false => rfl
          | true =>
            rw [isType] at decided
            cases resolved : first.store.isResolved decl with
            | true => rw [advances.store.isResolved_mono resolved]
            | false =>
              rw [resolved] at decided
              exact absurd rfl (decided _)
  | nameRef data => rw [judge, judge, parallel.judgeName_eq, advances.store.span]
  | _ => rfl

/-- What has to wait is not given up later: only verdicts to wait for a type change in the course of a
resolution, and they turn into verdicts to bind. -/
theorem Advances.judge_ne_reject {first second : Resolution} (advances : first.Advances second)
    {path : Path} {id : NodeId} {content : Content} {reason : String}
    (waits : first.judge path id content = .wait reason) (report : Diagnostic) :
    second.judge path id content ≠ .reject report := by
  have parallel := advances.parallel
  cases content with
  | typeRef data =>
    simp only [judge, judgeType] at waits
    simp only [judge, judgeType, parallel.lookup_eq, parallel.names, parallel.store.kind?_eq]
    cases found : first.lookup path data.name with
    | none => simp [Verdict.map]
    | some symbol =>
      cases symbol with
      | builtin builtin => simp [Verdict.map]
      | decl decl =>
        rw [found] at waits
        dsimp only at waits ⊢
        cases kind : first.store.kind? decl with
        | none => simp [kind, Verdict.map] at waits
        | some known =>
          cases isType : known.isTypeDecl with
          | false => simp [kind, isType, Verdict.map] at waits
          | true => cases second.store.isResolved decl <;> simp [isType, Verdict.map]
  | nameRef data =>
    rw [judge, parallel.judgeName_eq, advances.store.span, ← judge, waits]
    simp
  | _ => cases waits

/-- Whether a reference is given up, and with which report, is known from the start. -/
theorem Advances.judge_eq_reject_iff {first second : Resolution} (advances : first.Advances second)
    {path : Path} {id : NodeId} {content : Content} {report : Diagnostic} :
    second.judge path id content = .reject report ↔
      first.judge path id content = .reject report := by
  cases judged : first.judge path id content with
  | wait reason => simp [advances.judge_ne_reject judged]
  | bind bound => rw [advances.judge_eq (by simp [judged]), judged]
  | reject other => rw [advances.judge_eq (by simp [judged]), judged]

end Resolution

end Declarations
