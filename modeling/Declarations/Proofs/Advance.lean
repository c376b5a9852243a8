import Declarations.Resolution.Run

/-!
# What a resolution may change

A resolution leaves marks: it marks a declaration as resolved, and it binds a reference or gives it
up. Nothing else of a node changes, and a mark is never taken back. `Advances` says so, first of the
content of one node, then of a store, then of a resolution. It is an order: a store that comes back
to what it was has not changed in between.
-/

namespace Declarations

namespace Header

theorem markResolved_of_isResolved {header : Header} (resolved : header.isResolved = true) :
    header.markResolved = header := by
  obtain ⟨name, ⟨isPublic, isForeign, isResolved⟩, foreignName⟩ := header
  have set : isResolved = true := resolved
  subst set
  rfl

end Header

namespace Content

/-- Whether the node is a reference. -/
def isReference (content : Content) : Bool :=
  content.kind == .typeRef || content.kind == .nameRef

/-- Whether a walk can leave a mark on the node; modules and literals bear none. -/
def isMarkable (content : Content) : Bool := content.kind.isDeclaration || content.isReference

/-- Whether the node bears its mark: a declaration that is resolved, or a reference that is bound
or given up. -/
def isMarked : Content → Bool
  | .typeRef data => data.isSettled
  | .nameRef data => data.isSettled
  | content => content.isResolved

/-- A reference after it has been given up; other nodes stay as they are. -/
def givenUp : Content → Content
  | .typeRef data => .typeRef { data with failed := true }
  | .nameRef data => .nameRef { data with failed := true }
  | content => content

/-- Whether the node is a reference that has been given up. -/
def isGivenUp : Content → Bool
  | .typeRef data => data.failed
  | .nameRef data => data.failed
  | _ => false

/-- The content that a step of a resolution may leave in place of another. -/
inductive Advances : Content → Content → Prop
  | same (content : Content) : Advances content content
  | resolve (content : Content) : Advances content (content.mapHeader Header.markResolved)
  | bindType {reference : TypeReference} (target : TypeTarget)
      (isOpen : reference.isSettled = false) :
      Advances (.typeRef reference) (.typeRef { reference with target := some target })
  | bindName {reference : NameReference} (target : NodeId)
      (isOpen : reference.isSettled = false) :
      Advances (.nameRef reference) (.nameRef { reference with target := some target })
  | giveUp {content : Content} (isOpen : content.isMarked = false) :
      Advances content content.givenUp

theorem isMarkable_of_isMarked {content : Content} (marked : content.isMarked = true) :
    content.isMarkable = true := by
  cases content <;> first | rfl | cases marked

theorem not_isMarked_of_not_isMarkable {content : Content}
    (unmarkable : content.isMarkable = false) : content.isMarked = false := by
  cases marked : content.isMarked with
  | false => rfl
  | true =>
    rw [isMarkable_of_isMarked marked] at unmarkable
    cases unmarkable

theorem isMarked_of_isResolved {content : Content} (resolved : content.isResolved = true) :
    content.isMarked = true := by
  cases content <;> first | exact resolved | cases resolved

theorem isResolved_of_isMarked {content : Content} (declares : content.kind.isDeclaration = true)
    (marked : content.isMarked = true) : content.isResolved = true := by
  cases content <;> first | exact marked | cases declares

theorem isDeclaration_of_isResolved {content : Content} (resolved : content.isResolved = true) :
    content.kind.isDeclaration = true := by
  cases content <;> first | rfl | cases resolved

theorem isMarked_mapHeader_markResolved {content : Content}
    (declares : content.kind.isDeclaration = true) :
    (content.mapHeader Header.markResolved).isMarked = true := by
  cases content <;> first | rfl | cases declares

theorem isMarked_givenUp {content : Content} (reference : content.isReference = true) :
    content.givenUp.isMarked = true := by
  cases content with
  | typeRef data => simp [givenUp, isMarked, TypeReference.isSettled]
  | nameRef data => simp [givenUp, isMarked, NameReference.isSettled]
  | _ => cases reference

theorem isMarked_of_isGivenUp {content : Content} (givenUp : content.isGivenUp = true) :
    content.isMarked = true := by
  cases content with
  | typeRef data =>
    have failed : data.failed = true := givenUp
    exact (Bool.or_eq_true _ _).mpr (Or.inr failed)
  | nameRef data =>
    have failed : data.failed = true := givenUp
    exact (Bool.or_eq_true _ _).mpr (Or.inr failed)
  | _ => cases givenUp

theorem isGivenUp_givenUp {content : Content} (reference : content.isReference = true) :
    content.givenUp.isGivenUp = true := by
  cases content <;> first | rfl | cases reference

@[simp] theorem isGivenUp_mapHeader (f : Header → Header) (content : Content) :
    (content.mapHeader f).isGivenUp = content.isGivenUp := by
  cases content <;> rfl

/-- Marking a node again changes nothing. -/
theorem mapHeader_markResolved_of_isMarked {content : Content} (marked : content.isMarked = true) :
    content.mapHeader Header.markResolved = content := by
  cases content with
  | cover data | enum data | element data | «variable» data =>
    have unchanged : data.header.markResolved = data.header :=
      Header.markResolved_of_isResolved marked
    simp only [mapHeader, unchanged]
  | _ => rfl

/-- A module or a literal is not changed by marking it. -/
theorem mapHeader_markResolved_of_not_isMarkable {content : Content}
    (unmarkable : content.isMarkable = false) :
    content.mapHeader Header.markResolved = content := by
  cases content <;> first | rfl | cases unmarkable

namespace Advances

variable {first second third : Content}

/-- A step either changes nothing or puts a mark where there was none. -/
theorem eq_or_marked (advances : first.Advances second) :
    second = first ∨ (first.isMarked = false ∧ second.isMarked = true) := by
  cases advances with
  | same => exact Or.inl rfl
  | resolve =>
    by_cases declares : first.kind.isDeclaration = true
    · cases marked : first.isMarked with
      | true => exact Or.inl (mapHeader_markResolved_of_isMarked marked)
      | false => exact Or.inr ⟨rfl, isMarked_mapHeader_markResolved declares⟩
    · refine Or.inl ?_
      cases first <;> first | rfl | exact absurd rfl declares
  | bindType target isOpen => exact Or.inr ⟨isOpen, rfl⟩
  | bindName target isOpen => exact Or.inr ⟨isOpen, rfl⟩
  | giveUp isOpen =>
    by_cases reference : first.isReference = true
    · exact Or.inr ⟨isOpen, isMarked_givenUp reference⟩
    · refine Or.inl ?_
      cases first <;> first | rfl | exact absurd rfl reference

theorem eq_of_isMarked (advances : first.Advances second) (marked : first.isMarked = true) :
    second = first := by
  rcases advances.eq_or_marked with equal | ⟨unmarked, -⟩
  · exact equal
  · rw [marked] at unmarked
    cases unmarked

theorem eq_of_not_isMarked (advances : first.Advances second)
    (unmarked : second.isMarked = false) : second = first := by
  rcases advances.eq_or_marked with equal | ⟨-, marked⟩
  · exact equal
  · rw [marked] at unmarked
    cases unmarked

/-- A node that is no reference has only one mark to get. -/
theorem eq_mapHeader_of_isMarked (advances : first.Advances second)
    (notReference : first.isReference = false) (marked : second.isMarked = true) :
    second = first.mapHeader Header.markResolved := by
  cases advances with
  | same => exact (mapHeader_markResolved_of_isMarked marked).symm
  | resolve => rfl
  | bindType | bindName => cases notReference
  | giveUp isOpen =>
    cases first with
    | typeRef | nameRef => cases notReference
    | _ => exact (mapHeader_markResolved_of_isMarked marked).symm

theorem isMarked_mono (advances : first.Advances second) (marked : first.isMarked = true) :
    second.isMarked = true := by
  rw [advances.eq_of_isMarked marked]
  exact marked

theorem trans (advances : first.Advances second) (next : second.Advances third) :
    first.Advances third := by
  rcases advances.eq_or_marked with equal | ⟨-, marked⟩
  · rw [equal] at next
    exact next
  · rw [next.eq_of_isMarked marked]
    exact advances

theorem antisymm (advances : first.Advances second) (back : second.Advances first) :
    second = first := by
  rcases advances.eq_or_marked with equal | ⟨-, marked⟩
  · exact equal
  · exact (back.eq_of_isMarked marked).symm

/-- A step keeps the kind of a node, and the nodes it holds. -/
theorem kind_eq (advances : first.Advances second) : second.kind = first.kind := by
  cases advances with
  | same | bindType | bindName => rfl
  | resolve | giveUp => cases first <;> rfl

theorem stages_eq (advances : first.Advances second) : second.stages = first.stages := by
  cases advances with
  | same | bindType | bindName => rfl
  | resolve | giveUp => cases first <;> rfl

theorem children_eq (advances : first.Advances second) : second.children = first.children := by
  rw [children, children, advances.stages_eq]

theorem isMarkable_eq (advances : first.Advances second) :
    second.isMarkable = first.isMarkable := by
  rw [isMarkable, isMarkable, isReference, isReference, advances.kind_eq]

theorem isReference_eq (advances : first.Advances second) :
    second.isReference = first.isReference := by
  rw [isReference, isReference, advances.kind_eq]

end Advances

end Content

namespace Store

theorem content?_modify (store : Store) (changed id : NodeId) (f : Content → Content) :
    (store.modify changed f).content? id =
      if changed = id then (store.content? id).map f else store.content? id := by
  rw [content?, content?, get?_modify]
  by_cases same : changed = id
  · rw [if_pos same, if_pos same, Option.map_map, Option.map_map]
    rfl
  · rw [if_neg same, if_neg same]

theorem content?_modify_same (store : Store) (id : NodeId) (f : Content → Content) :
    (store.modify id f).content? id = (store.content? id).map f := by
  rw [content?_modify, if_pos rfl]

/-- A node is its content and its span. -/
theorem get?_eq_of_content?_eq {first second : Store} {id : NodeId}
    (sameSpan : second.span id = first.span id)
    (sameContent : second.content? id = first.content? id) : second.get? id = first.get? id := by
  rw [content?, content?] at sameContent
  rw [span, span] at sameSpan
  cases foundFirst : first.get? id with
  | none =>
    rw [foundFirst] at sameContent
    exact Option.map_eq_none_iff.mp sameContent
  | some node =>
    rw [foundFirst] at sameContent sameSpan
    obtain ⟨other, foundSecond, equal⟩ := Option.map_eq_some_iff.mp sameContent
    rw [foundSecond] at sameSpan
    rw [foundSecond]
    cases node
    cases other
    simp_all

/-- A store is what its nodes read as. -/
theorem ext_content {first second : Store} (spans : ∀ id, second.span id = first.span id)
    (contents : ∀ id, second.content? id = first.content? id) : second = first := by
  cases first with
  | mk firstNodes =>
    cases second with
    | mk secondNodes =>
      congr 1
      apply Array.ext_getElem?
      intro index
      exact get?_eq_of_content?_eq (spans ⟨index⟩) (contents ⟨index⟩)

/-- A change that leaves the content of the node as it is changes nothing. -/
theorem modify_eq_self {store : Store} {id : NodeId} {f : Content → Content}
    (unchanged : ∀ content, store.content? id = some content → f content = content) :
    store.modify id f = store := by
  apply ext_content
  · intro other
    exact span_modify store id other f
  · intro other
    rw [content?_modify]
    by_cases same : id = other
    · subst same
      rw [if_pos rfl]
      cases found : store.content? id with
      | none => rfl
      | some content => exact congrArg some (unchanged content found)
    · rw [if_neg same]

theorem isResolved_iff {store : Store} {id : NodeId} :
    store.isResolved id = true ↔
      ∃ content, store.content? id = some content ∧ content.isResolved = true := by
  rw [isResolved]
  exact Option.any_eq_true _ _

theorem module?_eq_some_iff {store : Store} {id : NodeId} {scope : Module} :
    store.module? id = some scope ↔ store.content? id = some (.module scope) := by
  rw [module?]
  cases store.content? id with
  | none => simp
  | some content => cases content <;> simp

theorem cover?_eq_some_iff {store : Store} {id : NodeId} {cover : Cover} :
    store.cover? id = some cover ↔ store.content? id = some (.cover cover) := by
  rw [cover?]
  cases store.content? id with
  | none => simp
  | some content => cases content <;> simp

theorem typeRef?_eq_some_iff {store : Store} {id : NodeId} {reference : TypeReference} :
    store.typeRef? id = some reference ↔ store.content? id = some (.typeRef reference) := by
  rw [typeRef?]
  cases store.content? id with
  | none => simp
  | some content => cases content <;> simp

theorem nameRef?_eq_some_iff {store : Store} {id : NodeId} {reference : NameReference} :
    store.nameRef? id = some reference ↔ store.content? id = some (.nameRef reference) := by
  rw [nameRef?]
  cases store.content? id with
  | none => simp
  | some content => cases content <;> simp

theorem literal?_eq_some_iff {store : Store} {id : NodeId} {value : Literal} :
    store.literal? id = some value ↔ store.content? id = some (.literal value) := by
  rw [literal?]
  cases store.content? id with
  | none => simp
  | some content => cases content <;> simp

/-- Whether a node is a reference that has been given up. -/
def isGivenUp (store : Store) (id : NodeId) : Bool := (store.content? id).any Content.isGivenUp

theorem isGivenUp_of_not_isMarked {store : Store} {id : NodeId} {content : Content}
    (found : store.content? id = some content) (isOpen : content.isMarked = false) :
    store.isGivenUp id = false := by
  rw [isGivenUp, found, Option.any_some, Bool.eq_false_iff]
  intro givenUp
  rw [Content.isMarked_of_isGivenUp givenUp] at isOpen
  cases isOpen

/-- A change that gives no reference up and takes none back shows nowhere. -/
theorem isGivenUp_modify {store : Store} {id : NodeId} {f : Content → Content}
    (same : ∀ {content}, store.content? id = some content →
      (f content).isGivenUp = content.isGivenUp) (other : NodeId) :
    (store.modify id f).isGivenUp other = store.isGivenUp other := by
  rw [isGivenUp, isGivenUp, content?_modify]
  by_cases own : id = other
  · subst own
    rw [if_pos rfl]
    cases found : store.content? id with
    | none => rfl
    | some content => exact same found
  · rw [if_neg own]

/-- Every node of the second store is the node of the first, possibly with a mark added. -/
structure Advances (first second : Store) : Prop where
  span : ∀ id, second.span id = first.span id
  content : ∀ id, Option.Rel Content.Advances (first.content? id) (second.content? id)

namespace Advances

variable {first second third : Store}

theorem refl (store : Store) : store.Advances store where
  span _ := rfl
  content id := by
    cases store.content? id with
    | none => exact .none
    | some content => exact .some (.same content)

theorem forward (advances : first.Advances second) {id : NodeId} {content : Content}
    (found : first.content? id = some content) :
    ∃ later, second.content? id = some later ∧ content.Advances later := by
  have related := advances.content id
  rw [found] at related
  cases later : second.content? id with
  | none =>
    rw [later] at related
    cases related
  | some value =>
    rw [later] at related
    cases related with
    | some step => exact ⟨value, rfl, step⟩

theorem backward (advances : first.Advances second) {id : NodeId} {later : Content}
    (found : second.content? id = some later) :
    ∃ content, first.content? id = some content ∧ content.Advances later := by
  have related := advances.content id
  rw [found] at related
  cases earlier : first.content? id with
  | none =>
    rw [earlier] at related
    cases related
  | some value =>
    rw [earlier] at related
    cases related with
    | some step => exact ⟨value, rfl, step⟩

/-- A node that bears its mark stays as it is. -/
theorem found_of_isMarked (advances : first.Advances second) {id : NodeId} {content : Content}
    (found : first.content? id = some content) (marked : content.isMarked = true) :
    second.content? id = some content := by
  obtain ⟨later, foundLater, step⟩ := advances.forward found
  rw [foundLater, step.eq_of_isMarked marked]

/-- A node that bears no mark yet has always been as it is. -/
theorem found_of_not_isMarked (advances : first.Advances second) {id : NodeId} {later : Content}
    (found : second.content? id = some later) (unmarked : later.isMarked = false) :
    first.content? id = some later := by
  obtain ⟨content, foundEarlier, step⟩ := advances.backward found
  rw [foundEarlier, step.eq_of_not_isMarked unmarked]

theorem content?_eq_none (advances : first.Advances second) {id : NodeId} :
    second.content? id = none ↔ first.content? id = none := by
  have related := advances.content id
  constructor
  · intro missing
    rw [missing] at related
    cases found : first.content? id with
    | none => rfl
    | some content =>
      rw [found] at related
      cases related
  · intro missing
    rw [missing] at related
    cases found : second.content? id with
    | none => rfl
    | some content =>
      rw [found] at related
      cases related

theorem trans (advances : first.Advances second) (next : second.Advances third) :
    first.Advances third where
  span id := (next.span id).trans (advances.span id)
  content id := by
    cases found : first.content? id with
    | none =>
      rw [next.content?_eq_none.mpr (advances.content?_eq_none.mpr found)]
      exact .none
    | some content =>
      obtain ⟨middle, foundMiddle, toMiddle⟩ := advances.forward found
      obtain ⟨last, foundLast, toLast⟩ := next.forward foundMiddle
      rw [foundLast]
      exact .some (toMiddle.trans toLast)

/-- A store that advances and comes back has not changed. -/
theorem antisymm (advances : first.Advances second) (back : second.Advances first) :
    second = first := by
  apply ext_content advances.span
  intro id
  cases found : first.content? id with
  | none => exact advances.content?_eq_none.mpr found
  | some content =>
    obtain ⟨later, foundLater, toLater⟩ := advances.forward found
    obtain ⟨again, foundAgain, toAgain⟩ := back.forward foundLater
    rw [found] at foundAgain
    cases foundAgain
    rw [foundLater, toLater.antisymm toAgain]

/-- Changing one node by a step advances the store. -/
theorem modify {store : Store} {id : NodeId} {f : Content → Content}
    (step : ∀ content, store.content? id = some content → content.Advances (f content)) :
    store.Advances (store.modify id f) where
  span other := span_modify store id other f
  content other := by
    rw [content?_modify]
    by_cases same : id = other
    · subst same
      rw [if_pos rfl]
      cases found : store.content? id with
      | none => exact .none
      | some content => exact .some (step content found)
    · rw [if_neg same]
      exact (refl store).content other

theorem kind?_eq (advances : first.Advances second) (id : NodeId) :
    second.kind? id = first.kind? id := by
  rw [kind?, kind?]
  cases found : first.content? id with
  | none => rw [advances.content?_eq_none.mpr found]
  | some content =>
    obtain ⟨later, foundLater, step⟩ := advances.forward found
    rw [foundLater, Option.map_some, Option.map_some, step.kind_eq]

theorem children_eq (advances : first.Advances second) (id : NodeId) :
    second.children id = first.children id := by
  rw [children, children]
  cases found : first.content? id with
  | none => rw [advances.content?_eq_none.mpr found]
  | some content =>
    obtain ⟨later, foundLater, step⟩ := advances.forward found
    rw [foundLater, Option.map_some, Option.map_some, step.children_eq]

theorem size_eq (advances : first.Advances second) : second.size = first.size := by
  have sameEnd : ∀ index, second.size ≤ index ↔ first.size ≤ index := by
    intro index
    have missing : second.content? ⟨index⟩ = none ↔ first.content? ⟨index⟩ = none :=
      advances.content?_eq_none
    rw [content?, content?, Option.map_eq_none_iff, Option.map_eq_none_iff,
      get?_eq_none_iff, get?_eq_none_iff] at missing
    exact missing
  have atSecond := (sameEnd second.size).mp (Nat.le_refl _)
  have atFirst := (sameEnd first.size).mpr (Nat.le_refl _)
  omega

theorem isResolved_mono (advances : first.Advances second) {id : NodeId}
    (resolved : first.isResolved id = true) : second.isResolved id = true := by
  obtain ⟨content, found, marked⟩ := isResolved_iff.mp resolved
  obtain ⟨later, foundLater, step⟩ := advances.forward found
  have same := step.eq_of_isMarked (Content.isMarked_of_isResolved marked)
  rw [same] at foundLater
  exact isResolved_iff.mpr ⟨content, foundLater, marked⟩

theorem isGivenUp_mono (advances : first.Advances second) {id : NodeId}
    (givenUp : first.isGivenUp id = true) : second.isGivenUp id = true := by
  obtain ⟨content, found, gaveUp⟩ := (Option.any_eq_true _ _).mp givenUp
  rw [isGivenUp, advances.found_of_isMarked found (Content.isMarked_of_isGivenUp gaveUp)]
  exact gaveUp

end Advances

end Store

namespace Resolution

/-- What one step of a resolution leaves as it is, and in which direction the rest moves. -/
structure Advances (first second : Resolution) : Prop where
  store : first.store.Advances second.store
  names : second.names = first.names
  modules : second.modules = first.modules
  importable : second.importable = first.importable
  failed : first.failed = true → second.failed = true

namespace Advances

variable {first second third : Resolution}

theorem refl (resolution : Resolution) : resolution.Advances resolution where
  store := .refl _
  names := rfl
  modules := rfl
  importable := rfl
  failed holds := holds

theorem trans (advances : first.Advances second) (next : second.Advances third) :
    first.Advances third where
  store := advances.store.trans next.store
  names := next.names.trans advances.names
  modules := next.modules.trans advances.modules
  importable := next.importable.trans advances.importable
  failed holds := next.failed (advances.failed holds)

end Advances

theorem advances_defer (resolution : Resolution) (id : NodeId) (reason : String) :
    resolution.Advances (resolution.defer id reason) where
  store := .refl _
  names := rfl
  modules := rfl
  importable := rfl
  failed holds := holds

theorem advances_reportFatal (resolution : Resolution) (report : Diagnostic) :
    resolution.Advances (resolution.reportFatal report) where
  store := .refl _
  names := rfl
  modules := rfl
  importable := rfl
  failed _ := rfl

theorem advances_modify {resolution : Resolution} {id : NodeId} {f : Content → Content}
    (step : ∀ content, resolution.store.content? id = some content →
      content.Advances (f content)) :
    resolution.Advances (resolution.modify id f) where
  store := .modify step
  names := rfl
  modules := rfl
  importable := rfl
  failed holds := holds

theorem advances_finish (resolution : Resolution) (id : NodeId) :
    resolution.Advances (resolution.finish id) :=
  advances_modify fun content _ => .resolve content

theorem isGivenUp_finish (resolution : Resolution) (id other : NodeId) :
    (resolution.finish id).store.isGivenUp other = resolution.store.isGivenUp other :=
  Store.isGivenUp_modify (fun _ => Content.isGivenUp_mapHeader _ _) other

end Resolution

end Declarations
