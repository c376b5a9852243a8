import Declarations.Proofs.Advance
import Declarations.Proofs.Members

/-!
# Registration as a check and a change

An element is registered by an edit that reads the store, puts a literal at its end, changes the
element and then the enumeration, and could be refused at each of these steps. In truth every
refusal comes before the first change: registering is a check of the store, and if that passes, a
change that cannot fail. What is proved about registering rests on this and on what each node reads
as after the change.
-/

namespace Declarations

/-- How an element comes by its value: a foreign one has none, the author may give one, and else a
literal is computed. -/
inductive Origin where
  | foreign
  | author (value : NodeId)
  | computed (next : Literal)

namespace Origin

/-- The value that becomes the latest one, where a computed literal is put at `fresh`. -/
def value? (fresh : NodeId) : Origin → Option NodeId
  | .foreign => none
  | .author value => some value
  | .computed _ => some fresh

/-- The element once it is registered with an enumeration over a type. -/
def settle (fresh : NodeId) (type : Underlying) (element : Element) : Origin → Element
  | .foreign => { element with header := element.header.markForeign, type := some type }
  | .author _ => { element with type := some type }
  | .computed _ => { element with value := some fresh, type := some type }

/-- The store with the computed literal at its end, if there is one. -/
def grow (store : Store) (span : Span) : Origin → Store
  | .foreign | .author _ => store
  | .computed next => (store.alloc (.literal next) span).2

end Origin

/-- Neither foreign nor given a value by its author. -/
def Element.isImplicit (element : Element) : Bool :=
  !element.header.isForeign && element.explicitValue?.isNone

theorem Element.isImplicit_iff {element : Element} : element.isImplicit = true ↔
    element.header.isForeign = false ∧ element.explicitValue? = none := by
  simp [isImplicit]

/-- The enumeration with one more member, whose value, if it has one, is the latest. -/
def Enumeration.enter (decl : Enumeration) (name : Name) (id : NodeId) (value : Option NodeId) :
    Enumeration :=
  { decl with members := decl.members.enter name id, lastValue := value.getD decl.lastValue }

namespace Store

variable {store : Store} {enumId elementId id : NodeId} {decl : Enumeration} {element : Element}
  {origin : Origin}

theorem enum?_eq_some_iff : store.enum? id = some decl ↔ store.content? id = some (.enum decl) := by
  rw [enum?]
  cases store.content? id with
  | none => simp
  | some content => cases content <;> simp

theorem element?_eq_some_iff :
    store.element? id = some element ↔ store.content? id = some (.element element) := by
  rw [element?]
  cases store.content? id with
  | none => simp
  | some content => cases content <;> simp

theorem get?_of_content? {content : Content} (found : store.content? id = some content) :
    store.get? id = some ⟨content, store.span id⟩ := by
  obtain ⟨node, stands, rfl⟩ := Option.map_eq_some_iff.mp found
  rw [span, stands]
  rfl

theorem index_lt_of_get? {node : Node} (found : store.get? id = some node) :
    id.index < store.size := by
  apply Nat.lt_of_not_le
  intro beyond
  rw [(get?_eq_none_iff store id).mpr beyond] at found
  cases found

theorem ne_of_enum_of_element (declared : store.enum? enumId = some decl)
    (found : store.element? elementId = some element) : elementId ≠ enumId := by
  rintro rfl
  rw [enum?_eq_some_iff] at declared
  rw [element?_eq_some_iff, declared] at found
  cases found

theorem content?_alloc (store : Store) (content : Content) (span : Span) (id : NodeId) :
    (store.alloc content span).2.content? id =
      if id = ⟨store.size⟩ then some content else store.content? id := by
  rw [content?, get?_alloc, alloc]
  split <;> rfl

theorem get?_setContent (store : Store) (changed id : NodeId) (content : Content) :
    (store.setContent changed content).get? id =
      if changed = id then (store.get? id).map fun node => ⟨content, node.span⟩
      else store.get? id :=
  get?_modify store changed id _

theorem content?_setContent (store : Store) (changed id : NodeId) (content : Content) :
    (store.setContent changed content).content? id =
      if changed = id then (store.content? id).map fun _ => content else store.content? id :=
  content?_modify store changed id _

theorem setContent_setContent (store : Store) (id : NodeId) (first second : Content) :
    (store.setContent id first).setContent id second = store.setContent id second := by
  apply ext_content
  · intro other
    simp [setContent]
  · intro other
    simp only [content?_setContent]
    split <;> simp [Function.comp_def]

theorem element?_setContent_self {content : Content} (present : store.content? id = some content)
    (element : Element) : (store.setContent id (.element element)).element? id = some element := by
  rw [element?_eq_some_iff, content?_setContent, if_pos rfl, present]
  rfl

theorem enum?_setContent_of_ne {changed : NodeId} (different : changed ≠ id) (content : Content) :
    (store.setContent changed content).enum? id = store.enum? id := by
  rw [enum?, enum?, content?_setContent, if_neg different]

theorem get?_alloc_of_some {node : Node} (found : store.get? id = some node) (content : Content)
    (span : Span) : (store.alloc content span).2.get? id = some node := by
  have below := index_lt_of_get? found
  rw [get?_alloc, if_neg, found]
  rintro rfl
  exact Nat.lt_irrefl _ below

theorem content?_alloc_of_some {present : Content} (found : store.content? id = some present)
    (content : Content) (span : Span) : (store.alloc content span).2.content? id = some present := by
  obtain ⟨node, stands, rfl⟩ := Option.map_eq_some_iff.mp found
  rw [content?, get?_alloc_of_some stands]
  rfl

theorem get?_grow_of_some {node : Node} (found : store.get? id = some node) (span : Span)
    (origin : Origin) : (origin.grow store span).get? id = some node := by
  cases origin with
  | foreign => exact found
  | author value => exact found
  | computed next => exact get?_alloc_of_some found _ _

theorem content?_grow_of_some {content : Content} (found : store.content? id = some content)
    (span : Span) (origin : Origin) : (origin.grow store span).content? id = some content := by
  obtain ⟨node, stands, rfl⟩ := Option.map_eq_some_iff.mp found
  rw [content?, get?_grow_of_some stands]
  rfl

/-- How an element of an enumeration comes by its value, or why it cannot. -/
def originOf (store : Store) (decl : Enumeration) (elementId : NodeId) (element : Element) :
    Except RegistrationError Origin :=
  if decl.header.isForeign || element.header.isForeign then .ok .foreign
  else
    match element.explicitValue? with
    | some value => .ok (.author value)
    | none => (store.nextLiteral decl elementId).map .computed

theorem originOf_foreign (foreign : element.header.isForeign = true) :
    store.originOf decl elementId element = .ok .foreign := by
  simp [originOf, foreign]

theorem originOf_author {value : NodeId} (plainEnum : decl.header.isForeign = false)
    (plain : element.header.isForeign = false) (given : element.explicitValue? = some value) :
    store.originOf decl elementId element = .ok (.author value) := by
  simp [originOf, plainEnum, plain, given]

theorem originOf_implicit (plainEnum : decl.header.isForeign = false)
    (plain : element.header.isForeign = false) (implicit : element.explicitValue? = none) :
    store.originOf decl elementId element =
      (store.nextLiteral decl elementId).map .computed := by
  simp [originOf, plainEnum, plain, implicit]

/-- The three ways to come by a value. -/
theorem originOf_cases (originates : store.originOf decl elementId element = .ok origin) :
    ((decl.header.isForeign || element.header.isForeign) = true ∧ origin = .foreign) ∨
    ((decl.header.isForeign || element.header.isForeign) = false ∧
      ((∃ value, element.explicitValue? = some value ∧ origin = .author value) ∨
        (element.explicitValue? = none ∧
          ∃ next, store.nextLiteral decl elementId = .ok next ∧ origin = .computed next))) := by
  rw [originOf] at originates
  split at originates
  · next foreign =>
    cases originates
    exact .inl ⟨foreign, rfl⟩
  · next plain =>
    refine .inr ⟨Bool.eq_false_iff.mpr plain, ?_⟩
    split at originates
    · next value given =>
      cases originates
      exact .inl ⟨value, given, rfl⟩
    · next implicit =>
      cases follows : store.nextLiteral decl elementId with
      | error error =>
        rw [follows] at originates
        cases originates
      | ok next =>
        rw [follows] at originates
        cases originates
        exact .inr ⟨implicit, next, rfl, rfl⟩

/-- All that a registration looks at before it changes anything. -/
def check (store : Store) (enumId elementId : NodeId) :
    Except RegistrationError (Enumeration × Element × Origin) :=
  match store.enum? enumId, store.element? elementId with
  | none, _ => .error (.notAnEnum enumId)
  | some _, none => .error (.notAnElement elementId)
  | some decl, some element =>
    match decl.members.get? element.header.name with
    | some existing => .error (.duplicate elementId existing)
    | none => (store.originOf decl elementId element).map (decl, element, ·)

theorem check_of_unused (declared : store.enum? enumId = some decl)
    (found : store.element? elementId = some element)
    (unused : decl.members.get? element.header.name = none) :
    store.check enumId elementId = (store.originOf decl elementId element).map (decl, element, ·) := by
  rw [check, declared, found]
  dsimp only
  rw [unused]

/-- The store after a registration: one more literal at most, and the two nodes it is about. -/
def entered (store : Store) (enumId elementId : NodeId) (decl : Enumeration) (element : Element)
    (origin : Origin) : Store :=
  ((origin.grow store (store.span decl.lastValue)).setContent elementId
      (.element (origin.settle ⟨store.size⟩ decl.underlying element))).setContent enumId
    (.enum (decl.enter element.header.name elementId (origin.value? ⟨store.size⟩)))

theorem modifyElement_apply (found : store.element? id = some element)
    (f : Element → Element) :
    (modifyElement id f).apply store = (.ok (), store.setContent id (.element (f element))) := by
  simp [modifyElement, found]

theorem enterMember_apply {name : Name} (declared : store.enum? enumId = some decl)
    (unused : decl.members.get? name = none) (value : Option NodeId) :
    (enterMember enumId elementId name value).apply store =
      (.ok (), store.setContent enumId (.enum (decl.enter name elementId value))) := by
  simp [enterMember, declared, Members.insert_of_unused unused, Enumeration.enter]

/-- Once the checks are passed, the element is changed and entered without a further refusal. -/
theorem enter_apply {name : Name} (declared : store.enum? enumId = some decl)
    (found : store.element? elementId = some element) (unused : decl.members.get? name = none)
    (f : Element → Element) (value : Option NodeId) :
    (do modifyElement elementId f; enterMember enumId elementId name value :
        Edit RegistrationError Unit).apply store =
      (.ok (), (store.setContent elementId (.element (f element))).setContent enumId
        (.enum (decl.enter name elementId value))) := by
  have still : (store.setContent elementId (.element (f element))).enum? enumId = some decl := by
    rw [enum?_setContent_of_ne (ne_of_enum_of_element declared found), declared]
  simp [modifyElement_apply found, enterMember_apply still unused]

/-- A computed value is put at the end of the store and noted in the element. -/
theorem assignValue_apply_computed {next : Literal} (implicit : element.explicitValue? = none)
    (follows : store.nextLiteral decl elementId = .ok next)
    (found : store.element? elementId = some element) :
    (assignValue decl elementId element).apply store =
      (.ok ⟨store.size⟩,
        ((Origin.computed next).grow store (store.span decl.lastValue)).setContent elementId
          (.element { element with value := some ⟨store.size⟩ })) := by
  have still : ((Origin.computed next).grow store (store.span decl.lastValue)).element? elementId =
      some element := by
    rw [element?_eq_some_iff] at found ⊢
    exact content?_grow_of_some found _ _
  simp only [assignValue, implicit, follows, Edit.apply_bind, Edit.apply_get, Edit.apply_set]
  rw [Origin.grow] at still ⊢
  rw [modifyElement_apply still]
  rfl

/-- Registering is a check of the store, and then a change that is not refused. -/
theorem register_apply (store : Store) (enumId elementId : NodeId) :
    (register enumId elementId).apply store =
      match store.check enumId elementId with
      | .error error => (.error error, store)
      | .ok (decl, element, origin) =>
        (.ok (), store.entered enumId elementId decl element origin) := by
  rw [register, Edit.apply_bind, Edit.apply_get, check]
  dsimp only
  cases declared : store.enum? enumId with
  | none => rfl
  | some decl =>
    cases found : store.element? elementId with
    | none => rfl
    | some element =>
      dsimp only
      cases unused : decl.members.get? element.header.name with
      | some existing => rfl
      | none =>
        dsimp only
        rw [originOf]
        split
        · rw [enter_apply declared found unused]
          rfl
        · rw [Edit.apply_bind]
          cases given : element.explicitValue? with
          | some value =>
            rw [assignValue, given]
            dsimp only
            rw [Edit.apply_pure]
            exact enter_apply declared found unused _ _
          | none =>
            cases follows : store.nextLiteral decl elementId with
            | error error =>
              simp only [assignValue, given, follows, Edit.apply_bind, Edit.apply_get,
                Edit.apply_throw]
              rfl
            | ok next =>
              -- The element is changed twice here, first to note the value.
              have grown := content?_grow_of_some (element?_eq_some_iff.mp found)
                (store.span decl.lastValue) (.computed next)
              have noted := element?_setContent_self grown
                { element with value := some ⟨store.size⟩ }
              have still := content?_grow_of_some (enum?_eq_some_iff.mp declared)
                (store.span decl.lastValue) (.computed next)
              rw [← enum?_eq_some_iff,
                ← enum?_setContent_of_ne (ne_of_enum_of_element declared found)] at still
              rw [assignValue_apply_computed given follows found]
              dsimp only
              rw [enter_apply still noted unused, setContent_setContent]
              rfl

/-- The checks of a registration are passed, and the element has its value from the origin. -/
structure Admits (store : Store) (enumId elementId : NodeId) (decl : Enumeration)
    (element : Element) (origin : Origin) : Prop where
  declared : store.enum? enumId = some decl
  found : store.element? elementId = some element
  unused : decl.members.get? element.header.name = none
  originates : store.originOf decl elementId element = .ok origin

theorem check_eq_ok_iff :
    store.check enumId elementId = .ok (decl, element, origin) ↔
      store.Admits enumId elementId decl element origin := by
  constructor
  · intro passed
    rw [check] at passed
    split at passed
    · cases passed
    · cases passed
    · next decl' element' declared found =>
      split at passed
      · cases passed
      · next unused =>
        cases originates : store.originOf decl' elementId element' with
        | error error =>
          rw [originates] at passed
          cases passed
        | ok origin' =>
          rw [originates] at passed
          cases passed
          exact ⟨declared, found, unused, originates⟩
  · intro admits
    rw [check_of_unused admits.declared admits.found admits.unused, admits.originates]
    rfl

/-- A registration succeeds exactly if the checks are passed, and then does what they plan. -/
theorem register_eq_ok_iff {final : Store} :
    (register enumId elementId).apply store = (.ok (), final) ↔
      ∃ decl element origin, store.Admits enumId elementId decl element origin ∧
        final = store.entered enumId elementId decl element origin := by
  rw [register_apply]
  constructor
  · intro registered
    split at registered
    · cases registered
    · next decl element origin passed =>
      cases registered
      exact ⟨decl, element, origin, check_eq_ok_iff.mp passed, rfl⟩
  · rintro ⟨decl, element, origin, admits, rfl⟩
    rw [check_eq_ok_iff.mpr admits]

/-- A registration is refused exactly if the checks refuse it, and then changes nothing. -/
theorem register_eq_error_iff {error : RegistrationError} {final : Store} :
    (register enumId elementId).apply store = (.error error, final) ↔
      store.check enumId elementId = .error error ∧ final = store := by
  rw [register_apply]
  cases store.check enumId elementId with
  | error refusal => simp [eq_comm]
  | ok plan => simp

namespace Admits

theorem registers (admits : store.Admits enumId elementId decl element origin) :
    (register enumId elementId).apply store =
      (.ok (), store.entered enumId elementId decl element origin) :=
  register_eq_ok_iff.mpr ⟨decl, element, origin, admits, rfl⟩

/-- The node that a number stands for after a registration. -/
theorem get?_entered (admits : store.Admits enumId elementId decl element origin) (id : NodeId) :
    (store.entered enumId elementId decl element origin).get? id =
      if id = enumId then
        some ⟨.enum (decl.enter element.header.name elementId (origin.value? ⟨store.size⟩)),
          store.span enumId⟩
      else if id = elementId then
        some ⟨.element (origin.settle ⟨store.size⟩ decl.underlying element), store.span elementId⟩
      else (origin.grow store (store.span decl.lastValue)).get? id := by
  have enumNode := get?_grow_of_some (get?_of_content? (enum?_eq_some_iff.mp admits.declared))
    (store.span decl.lastValue) origin
  have elementNode := get?_grow_of_some (get?_of_content? (element?_eq_some_iff.mp admits.found))
    (store.span decl.lastValue) origin
  have apart := ne_of_enum_of_element admits.declared admits.found
  rw [entered, get?_setContent, get?_setContent]
  by_cases isEnum : id = enumId
  · subst isEnum
    rw [if_pos rfl, if_pos rfl, if_neg apart, enumNode]
    rfl
  · rw [if_neg (Ne.symm isEnum), if_neg isEnum]
    by_cases isElement : id = elementId
    · subst isElement
      rw [if_pos rfl, if_pos rfl, elementNode]
      rfl
    · rw [if_neg (Ne.symm isElement), if_neg isElement]

theorem enum?_self (admits : store.Admits enumId elementId decl element origin) :
    (store.entered enumId elementId decl element origin).enum? enumId =
      some (decl.enter element.header.name elementId (origin.value? ⟨store.size⟩)) := by
  rw [enum?_eq_some_iff, content?, admits.get?_entered, if_pos rfl]
  rfl

theorem element?_self (admits : store.Admits enumId elementId decl element origin) :
    (store.entered enumId elementId decl element origin).element? elementId =
      some (origin.settle ⟨store.size⟩ decl.underlying element) := by
  rw [element?_eq_some_iff, content?, admits.get?_entered,
    if_neg (ne_of_enum_of_element admits.declared admits.found), if_pos rfl]
  rfl

/-- A node other than the two that the registration is about stays as it is. -/
theorem get?_of_ne (admits : store.Admits enumId elementId decl element origin)
    (notEnum : id ≠ enumId) (notElement : id ≠ elementId) {node : Node}
    (found : store.get? id = some node) :
    (store.entered enumId elementId decl element origin).get? id = some node := by
  rw [admits.get?_entered, if_neg notEnum, if_neg notElement]
  exact get?_grow_of_some found _ _

theorem get?_of_literal (admits : store.Admits enumId elementId decl element origin)
    {value : Literal} {span : Span} (found : store.get? id = some ⟨.literal value, span⟩) :
    (store.entered enumId elementId decl element origin).get? id = some ⟨.literal value, span⟩ := by
  apply admits.get?_of_ne _ _ found
  · rintro rfl
    have declared := enum?_eq_some_iff.mp admits.declared
    rw [content?, found] at declared
    cases declared
  · rintro rfl
    have present := element?_eq_some_iff.mp admits.found
    rw [content?, found] at present
    cases present

/-- A computed literal stands at the end, where the latest value stands in the source. -/
theorem get?_fresh {next : Literal}
    (admits : store.Admits enumId elementId decl element (.computed next)) :
    (store.entered enumId elementId decl element (.computed next)).get? ⟨store.size⟩ =
      some ⟨.literal next, store.span decl.lastValue⟩ := by
  have belowEnum := index_lt_of_get? (get?_of_content? (enum?_eq_some_iff.mp admits.declared))
  have belowElement := index_lt_of_get? (get?_of_content? (element?_eq_some_iff.mp admits.found))
  rw [admits.get?_entered, if_neg, if_neg, Origin.grow, get?_alloc]
  · exact if_pos rfl
  · rintro rfl
    exact Nat.lt_irrefl _ belowElement
  · rintro rfl
    exact Nat.lt_irrefl _ belowEnum

/-- Nothing but a computed literal is new in the store. -/
theorem get?_of_none (admits : store.Admits enumId elementId decl element origin) {node : Node}
    (missing : store.get? id = none)
    (found : (store.entered enumId elementId decl element origin).get? id = some node) :
    ∃ next, origin = .computed next ∧ id = ⟨store.size⟩ ∧
      node = ⟨.literal next, store.span decl.lastValue⟩ := by
  have notEnum : id ≠ enumId := by
    rintro rfl
    rw [get?_of_content? (enum?_eq_some_iff.mp admits.declared)] at missing
    cases missing
  have notElement : id ≠ elementId := by
    rintro rfl
    rw [get?_of_content? (element?_eq_some_iff.mp admits.found)] at missing
    cases missing
  rw [admits.get?_entered, if_neg notEnum, if_neg notElement] at found
  cases origin with
  | foreign =>
    rw [Origin.grow, missing] at found
    cases found
  | author value =>
    rw [Origin.grow, missing] at found
    cases found
  | computed next =>
    rw [Origin.grow, get?_alloc] at found
    split at found
    · next isFresh =>
      cases found
      exact ⟨next, rfl, isFresh, rfl⟩
    · rw [missing] at found
      cases found

/-- What can have become of a node. -/
theorem content?_cases (admits : store.Admits enumId elementId decl element origin) (id : NodeId) :
    id = enumId ∨ id = elementId ∨
      (store.entered enumId elementId decl element origin).content? id = store.content? id ∨
      (store.content? id = none ∧ ∃ next,
        (store.entered enumId elementId decl element origin).content? id =
          some (.literal next)) := by
  by_cases isEnum : id = enumId
  · exact .inl isEnum
  by_cases isElement : id = elementId
  · exact .inr (.inl isElement)
  cases before : store.get? id with
  | some node =>
    refine .inr (.inr (.inl ?_))
    rw [content?, content?, before, admits.get?_of_ne isEnum isElement before]
  | none =>
    cases after : (store.entered enumId elementId decl element origin).get? id with
    | none =>
      refine .inr (.inr (.inl ?_))
      rw [content?, content?, before, after]
    | some node =>
      obtain ⟨next, -, -, rfl⟩ := admits.get?_of_none before after
      refine .inr (.inr (.inr ⟨?_, next, ?_⟩))
      · rw [content?, before]
        rfl
      · rw [content?, after]
        rfl

/-- No other enumeration changes. -/
theorem enum?_of_ne (admits : store.Admits enumId elementId decl element origin)
    (different : id ≠ enumId) :
    (store.entered enumId elementId decl element origin).enum? id = store.enum? id := by
  rcases admits.content?_cases id with isEnum | rfl | same | ⟨before, next, after⟩
  · exact absurd isEnum different
  · rw [enum?, enum?, element?_eq_some_iff.mp admits.found,
      element?_eq_some_iff.mp admits.element?_self]
  · rw [enum?, enum?, same]
  · rw [enum?, enum?, before, after]

/-- No other element changes. -/
theorem element?_of_ne (admits : store.Admits enumId elementId decl element origin)
    (different : id ≠ elementId) :
    (store.entered enumId elementId decl element origin).element? id = store.element? id := by
  rcases admits.content?_cases id with rfl | isElement | same | ⟨before, next, after⟩
  · rw [element?, element?, enum?_eq_some_iff.mp admits.declared,
      enum?_eq_some_iff.mp admits.enum?_self]
  · exact absurd isElement different
  · rw [element?, element?, same]
  · rw [element?, element?, before, after]

theorem size_entered (store : Store) (enumId elementId : NodeId) (decl : Enumeration)
    (element : Element) (origin : Origin) :
    (store.entered enumId elementId decl element origin).size =
      (origin.grow store (store.span decl.lastValue)).size := by
  rw [entered, setContent, setContent, size_modify, size_modify]

end Admits

/-- The name of an element is in use with an enumeration. -/
structure NameTaken (store : Store) (enumId id : NodeId) : Prop where
  taken : ∃ decl element existing, store.enum? enumId = some decl ∧
    store.element? id = some element ∧ decl.members.get? element.header.name = some existing

section Attempt

variable {left : Store} {outcome : Except RegistrationError Unit}

/-- Whatever comes of an attempt to register, the store is as it was or as the checks planned. -/
theorem attempt_cases (attempt : (register enumId elementId).apply store = (outcome, left)) :
    left = store ∨ ∃ decl element origin, store.Admits enumId elementId decl element origin ∧
      left = store.entered enumId elementId decl element origin := by
  cases outcome with
  | error error => exact .inl (register_eq_error_iff.mp attempt).2
  | ok => exact .inr (register_eq_ok_iff.mp attempt)

theorem get?_literal_of_attempt
    (attempt : (register enumId elementId).apply store = (outcome, left))
    {value : Literal} {span : Span} (found : store.get? id = some ⟨.literal value, span⟩) :
    left.get? id = some ⟨.literal value, span⟩ := by
  rcases attempt_cases attempt with rfl | ⟨decl, element, origin, admits, rfl⟩
  · exact found
  · exact admits.get?_of_literal found

theorem size_le_of_attempt
    (attempt : (register enumId elementId).apply store = (outcome, left)) :
    store.size ≤ left.size := by
  rcases attempt_cases attempt with rfl | ⟨decl, element, origin, admits, rfl⟩
  · exact Nat.le_refl _
  · rw [Admits.size_entered]
    cases origin <;> simp [Origin.grow]

/-- An element whose name is in use is refused, and so it stays as it is. -/
theorem NameTaken.of_attempt (taken : store.NameTaken enumId id)
    (attempt : (register enumId elementId).apply store = (outcome, left)) :
    left.NameTaken enumId id ∧ left.element? id = store.element? id := by
  rcases attempt_cases attempt with rfl | ⟨decl, element, origin, admits, rfl⟩
  · exact ⟨taken, rfl⟩
  · obtain ⟨decl', member, existing, declared, found, used⟩ := taken
    cases Option.some.inj (admits.declared.symm.trans declared)
    have free : element.header.name ≠ member.header.name := by
      intro same
      have unused := admits.unused
      rw [same, used] at unused
      cases unused
    have different : id ≠ elementId := by
      rintro rfl
      cases Option.some.inj (admits.found.symm.trans found)
      exact free rfl
    have same := admits.element?_of_ne different
    exact ⟨⟨_, member, existing, admits.enum?_self, same.trans found,
      Members.get?_enter_of_some used free⟩, same⟩

theorem NameTaken.of_registered
    (registered : (register enumId elementId).apply store = (.ok (), left)) :
    left.NameTaken enumId elementId := by
  obtain ⟨decl, element, origin, admits, rfl⟩ := register_eq_ok_iff.mp registered
  refine ⟨_, _, elementId, admits.enum?_self, admits.element?_self, ?_⟩
  cases origin <;> exact Members.get?_enter_self _ _ _

end Attempt

/-- Try to register elements one after another. The outcomes in order, and the store left. -/
def registerEach (store : Store) (enumId : NodeId) :
    List NodeId → List (NodeId × Except RegistrationError Unit) × Store
  | [] => ([], store)
  | id :: rest =>
    let attempt := (register enumId id).apply store
    let others := attempt.2.registerEach enumId rest
    ((id, attempt.1) :: others.1, others.2)

/-- Whether a node is a foreign element. -/
def isForeignElement (store : Store) (id : NodeId) : Bool :=
  (store.element? id).any fun element => element.header.isForeign

/-- Whether a node is an element that is neither foreign nor given a value by its author. -/
def isImplicit (store : Store) (id : NodeId) : Bool :=
  (store.element? id).any Element.isImplicit

theorem isForeignElement_iff : store.isForeignElement id = true ↔
    ∃ element, store.element? id = some element ∧ element.header.isForeign = true :=
  Option.any_eq_true _ _

theorem isImplicit_iff : store.isImplicit id = true ↔
    ∃ element, store.element? id = some element ∧ element.isImplicit = true :=
  Option.any_eq_true _ _

/-- The elements that are not foreign. -/
def withoutForeign (store : Store) (ids : List NodeId) : List NodeId :=
  ids.filter fun id => !store.isForeignElement id

theorem withoutForeign_cons_of_foreign {ids : List NodeId}
    (foreign : store.isForeignElement id = true) :
    store.withoutForeign (id :: ids) = store.withoutForeign ids := by
  simp [withoutForeign, foreign]

theorem withoutForeign_cons_of_plain {ids : List NodeId}
    (plain : store.isForeignElement id = false) :
    store.withoutForeign (id :: ids) = id :: store.withoutForeign ids := by
  simp [withoutForeign, plain]

/-- The name of an element. -/
def elementName? (store : Store) (id : NodeId) : Option Name :=
  (store.element? id).map fun element => element.header.name

/-- Elements of different names, none of which the enumeration has. -/
structure Awaits (store : Store) (decl : Enumeration) (ids : List NodeId) : Prop where
  unused : ∀ id ∈ ids, ∃ element, store.element? id = some element ∧
    decl.members.contains element.header.name = false
  distinct : (ids.map store.elementName?).Nodup

namespace Awaits

variable {ids : List NodeId}

theorem of_cons (awaits : store.Awaits decl (elementId :: ids)) : store.Awaits decl ids where
  unused other member := awaits.unused other (List.mem_cons_of_mem _ member)
  distinct := (List.nodup_cons.mp awaits.distinct).2

/-- Registering the first of the elements does not touch the others. -/
theorem element?_eq (awaits : store.Awaits decl (elementId :: ids))
    (admits : store.Admits enumId elementId decl element origin) (member : id ∈ ids) :
    (store.entered enumId elementId decl element origin).element? id = store.element? id := by
  have distinct := awaits.distinct
  rw [List.map_cons, List.nodup_cons] at distinct
  apply admits.element?_of_ne
  rintro rfl
  exact distinct.1 (List.mem_map_of_mem member)

theorem isForeignElement_eq (awaits : store.Awaits decl (elementId :: ids))
    (admits : store.Admits enumId elementId decl element origin) (member : id ∈ ids) :
    (store.entered enumId elementId decl element origin).isForeignElement id =
      store.isForeignElement id := by
  rw [isForeignElement, isForeignElement, awaits.element?_eq admits member]

theorem isImplicit_eq (awaits : store.Awaits decl (elementId :: ids))
    (admits : store.Admits enumId elementId decl element origin) (member : id ∈ ids) :
    (store.entered enumId elementId decl element origin).isImplicit id = store.isImplicit id := by
  rw [isImplicit, isImplicit, awaits.element?_eq admits member]

/-- Once the first of the elements is registered, the enumeration awaits the others. -/
theorem tail (awaits : store.Awaits decl (elementId :: ids))
    (admits : store.Admits enumId elementId decl element origin) (value : Option NodeId) :
    (store.entered enumId elementId decl element origin).Awaits
      (decl.enter element.header.name elementId value) ids where
  unused := by
    intro id member
    obtain ⟨follower, present, free⟩ := awaits.unused id (List.mem_cons_of_mem _ member)
    have different : element.header.name ≠ follower.header.name := by
      intro equal
      have distinct := awaits.distinct
      rw [List.map_cons, List.nodup_cons] at distinct
      apply distinct.1
      have named : store.elementName? id = store.elementName? elementId := by
        simp [elementName?, present, admits.found, equal]
      exact named ▸ List.mem_map_of_mem member
    refine ⟨follower, (awaits.element?_eq admits member).trans present, ?_⟩
    simp [Enumeration.enter, Members.contains_enter, free, different]
  distinct := by
    have distinct := awaits.distinct
    rw [List.map_cons, List.nodup_cons] at distinct
    have names : ∀ id ∈ ids, (store.entered enumId elementId decl element origin).elementName? id =
        store.elementName? id := by
      intro id member
      rw [elementName?, elementName?, awaits.element?_eq admits member]
    rw [List.map_congr_left names]
    exact distinct.2

end Awaits

end Store

end Declarations
