import Declarations.Proofs.Registration
import Mathlib.Logic.Function.Basic

/-!
# How enumerations are put together

While declarations are put together, nodes are allocated, rules are set and elements are registered,
with many enumerations at once and in any order. A registration only adds: the enumeration gains one
member, the element its type and its value, and at most one literal is new. So the members of an
enumeration are always the elements that were registered with it, in order, and its latest value is
the value of the last of them that is not foreign, or the zero that it started from.
-/

namespace Declarations

/-- An element once it is registered. A foreign one is marked and named, and one without a value from
its author has the literal at `fresh`. -/
def Element.registered (element : Element) (decl : Enumeration) (fresh : NodeId) : Element :=
  if decl.header.isForeign || element.header.isForeign then
    { element with header := element.header.markForeign, type := some decl.underlying }
  else if element.explicitValue?.isSome then { element with type := some decl.underlying }
  else { element with value := some fresh, type := some decl.underlying }

namespace Store

variable {store later final : Store} {enumId elementId id zero : NodeId} {decl : Enumeration}
  {element : Element} {origin : Origin} {roll : List NodeId}

/-- The registration of an element has changed nothing but the enumeration and the element, and has
put at most one literal at the end. -/
structure Appended (store final : Store) (enumId elementId : NodeId) (decl : Enumeration)
    (element : Element) : Prop where
  declared : store.enum? enumId = some decl
  found : store.element? elementId = some element
  /-- The element is the last member. Its value is the latest one, unless it is foreign. -/
  enumNode : ∃ members last,
    final.get? enumId =
      some ⟨.enum { decl with members := members, lastValue := last }, store.span enumId⟩ ∧
    members.toList = decl.members.toList ++ [(element.header.name, elementId)] ∧
    if (element.registered decl ⟨store.size⟩).header.isForeign then last = decl.lastValue
    else (element.registered decl ⟨store.size⟩).value = some last
  elementNode : final.get? elementId =
    some ⟨.element (element.registered decl ⟨store.size⟩), store.span elementId⟩
  /-- Only a computed value is new in the store, and it stands where the latest one does. -/
  literal : if decl.header.isForeign || element.header.isForeign || element.explicitValue?.isSome
    then final.size = store.size
    else final.size = store.size + 1 ∧
      ∃ value, final.get? ⟨store.size⟩ = some ⟨.literal value, store.span decl.lastValue⟩
  others : ∀ id node, id ≠ enumId → id ≠ elementId → store.get? id = some node →
    final.get? id = some node

/-- An element and the literal that is its value are as they were. -/
structure Keeps (store final : Store) (id : NodeId) : Prop where
  element : final.get? id = store.get? id
  value : ∀ element value literal, store.element? id = some element →
    element.value = some value → store.literal? value = some literal →
    final.get? value = store.get? value

/-- Where the latest value of an enumeration is, by the elements registered with it. -/
def latestValue? (store : Store) (zero : NodeId) (roll : List NodeId) : Option NodeId :=
  match (store.withoutForeign roll).getLast? with
  | none => some zero
  | some id => (store.element? id).bind Element.value

/-- What an enumeration holds agrees with where it started and with what was registered. -/
structure Accounts (store : Store) (zero : NodeId) (roll : List NodeId) (decl : Enumeration) :
    Prop where
  members : decl.members.ids = roll
  starts : store.literal? zero = some (.int 0)
  latest : store.latestValue? zero roll = some decl.lastValue

/-- Setting a rule changes nothing else. -/
theorem content?_setIncrement (store : Store) (enumId : NodeId) (increment : Increment)
    (id : NodeId) :
    (store.setIncrement enumId increment).content? id = store.content? id ∨
    ∃ decl, store.content? id = some (.enum decl) ∧
      (store.setIncrement enumId increment).content? id =
        some (.enum { decl with increment := increment }) := by
  rw [setIncrement]
  cases declared : store.enum? enumId with
  | none => exact .inl rfl
  | some decl =>
    dsimp only
    rw [content?_setContent]
    by_cases same : enumId = id
    · subst same
      have isEnum := enum?_eq_some_iff.mp declared
      refine .inr ⟨decl, isEnum, ?_⟩
      rw [if_pos rfl, isEnum]
      rfl
    · exact .inl (if_neg same)

theorem element?_setIncrement (store : Store) (enumId : NodeId) (increment : Increment)
    (id : NodeId) : (store.setIncrement enumId increment).element? id = store.element? id := by
  rw [element?, element?]
  rcases store.content?_setIncrement enumId increment id with same | ⟨decl, old, new⟩
  · rw [same]
  · rw [old, new]

theorem literal?_setIncrement (store : Store) (enumId : NodeId) (increment : Increment)
    (id : NodeId) : (store.setIncrement enumId increment).literal? id = store.literal? id := by
  rw [literal?, literal?]
  rcases store.content?_setIncrement enumId increment id with same | ⟨decl, old, new⟩
  · rw [same]
  · rw [old, new]

theorem enum?_setIncrement {increment : Increment} {changed : Enumeration}
    (declared : (store.setIncrement enumId increment).enum? id = some changed) :
    ∃ decl, store.enum? id = some decl ∧ changed.members = decl.members ∧
      changed.lastValue = decl.lastValue := by
  rw [enum?_eq_some_iff] at declared
  rcases store.content?_setIncrement enumId increment id with same | ⟨decl, old, new⟩
  · rw [same, ← enum?_eq_some_iff] at declared
    exact ⟨changed, declared, rfl, rfl⟩
  · rw [new] at declared
    cases declared
    exact ⟨decl, enum?_eq_some_iff.mpr old, rfl, rfl⟩

theorem withoutForeign_congr (same : ∀ id ∈ roll, later.element? id = store.element? id) :
    later.withoutForeign roll = store.withoutForeign roll := by
  apply List.filter_congr
  intro id member
  rw [isForeignElement, isForeignElement, same id member]

theorem latestValue?_congr (same : ∀ id ∈ roll, later.element? id = store.element? id) :
    later.latestValue? zero roll = store.latestValue? zero roll := by
  rw [latestValue?, latestValue?, withoutForeign_congr same]
  cases last : (store.withoutForeign roll).getLast? with
  | none => rfl
  | some id =>
    have member := List.mem_of_getLast? last
    dsimp only
    rw [same id (List.mem_filter.mp member).1]

theorem latestValue?_append_foreign (foreign : store.isForeignElement id = true) :
    store.latestValue? zero (roll ++ [id]) = store.latestValue? zero roll := by
  simp [latestValue?, withoutForeign, foreign]

theorem latestValue?_append_plain (found : store.element? id = some element)
    (plain : element.header.isForeign = false) :
    store.latestValue? zero (roll ++ [id]) = element.value := by
  simp [latestValue?, withoutForeign, isForeignElement, found, plain]

namespace Admits

theorem settle_eq (admits : store.Admits enumId elementId decl element origin) :
    origin.settle ⟨store.size⟩ decl.underlying element =
      element.registered decl ⟨store.size⟩ := by
  rw [Element.registered]
  rcases originOf_cases admits.originates with
    ⟨foreign, rfl⟩ | ⟨plain, ⟨value, given, rfl⟩ | ⟨implicit, next, -, rfl⟩⟩
  · rw [if_pos foreign]
    rfl
  · rw [plain, given]
    rfl
  · rw [plain, implicit]
    rfl

/-- The value of the element is the latest one, unless the element is foreign. -/
theorem latest (admits : store.Admits enumId elementId decl element origin) :
    if (element.registered decl ⟨store.size⟩).header.isForeign then
      (origin.value? ⟨store.size⟩).getD decl.lastValue = decl.lastValue
    else (element.registered decl ⟨store.size⟩).value =
      some ((origin.value? ⟨store.size⟩).getD decl.lastValue) := by
  rw [← admits.settle_eq]
  rcases originOf_cases admits.originates with
    ⟨foreign, rfl⟩ | ⟨plain, ⟨value, given, rfl⟩ | ⟨implicit, next, -, rfl⟩⟩
  · rfl
  · rw [Bool.or_eq_false_iff] at plain
    rw [Element.explicitValue?] at given
    split at given
    · simp [Origin.settle, plain.2, given, Origin.value?]
    · cases given
  · rw [Bool.or_eq_false_iff] at plain
    simp [Origin.settle, plain.2, Origin.value?]

theorem literal?_of_some (admits : store.Admits enumId elementId decl element origin)
    {value : Literal} (found : store.literal? id = some value) :
    (store.entered enumId elementId decl element origin).literal? id = store.literal? id := by
  have stands := admits.get?_of_literal (get?_of_content? (literal?_eq_some_iff.mp found))
  rw [found, literal?_eq_some_iff, content?, stands]
  rfl

theorem appended (admits : store.Admits enumId elementId decl element origin) :
    store.Appended (store.entered enumId elementId decl element origin) enumId elementId decl
      element where
  declared := admits.declared
  found := admits.found
  enumNode := by
    refine ⟨_, _, ?_, Members.toList_enter _ _ _, admits.latest⟩
    rw [admits.get?_entered, if_pos rfl]
    rfl
  elementNode := by
    have apart := ne_of_enum_of_element admits.declared admits.found
    rw [admits.get?_entered, if_neg apart, if_pos rfl, admits.settle_eq]
  literal := by
    rw [size_entered]
    rcases originOf_cases admits.originates with
      ⟨foreign, rfl⟩ | ⟨plain, ⟨value, given, rfl⟩ | ⟨implicit, next, -, rfl⟩⟩
    · rw [foreign]
      rfl
    · rw [plain, given]
      rfl
    · rw [plain, implicit]
      exact ⟨size_alloc _ _ _, next, admits.get?_fresh⟩
  others _ _ := fun notEnum notElement found => admits.get?_of_ne notEnum notElement found

end Admits

/-- An account stays right as long as its elements and its zero do. -/
theorem Accounts.of_eq (accounts : store.Accounts zero roll decl)
    (starts : later.literal? zero = store.literal? zero)
    (same : ∀ id ∈ roll, later.element? id = store.element? id) :
    later.Accounts zero roll decl where
  members := accounts.members
  starts := starts.trans accounts.starts
  latest := by
    rw [latestValue?_congr same]
    exact accounts.latest

/-- A registered element is entered at the end of the account of its enumeration. -/
theorem Accounts.enter (accounts : store.Accounts zero roll decl)
    (admits : store.Admits enumId elementId decl element origin)
    (same : ∀ id ∈ roll, (store.entered enumId elementId decl element origin).element? id =
      store.element? id) :
    (store.entered enumId elementId decl element origin).Accounts zero (roll ++ [elementId])
      (decl.enter element.header.name elementId (origin.value? ⟨store.size⟩)) where
  members := by
    rw [Enumeration.enter, Members.ids_enter, accounts.members]
  starts := (admits.literal?_of_some accounts.starts).trans accounts.starts
  latest := by
    have found := admits.element?_self
    have latest := admits.latest
    rw [admits.settle_eq] at found
    split at latest
    · next foreign =>
      rw [latestValue?_append_foreign (isForeignElement_iff.mpr ⟨_, found, foreign⟩),
        latestValue?_congr same, accounts.latest, Enumeration.enter, latest]
    · next plain =>
      rw [latestValue?_append_plain found (Bool.eq_false_iff.mpr plain), latest]
      rfl

end Store

/-- Where the values of an enumeration start, and which elements have been registered with it, in
order. -/
structure Past where
  zero : NodeId
  roll : List NodeId := []

/-- What is done to a store while declarations are put together. An enumeration is allocated with
its zero or as a copy of another one, and all other nodes as they are. -/
inductive Construction where
  | alloc (content : Content) (plain : content.kind ≠ .enum) (span : Span)
  | allocEnum (header : Header) (span : Span)
  | copy (id : NodeId) (span : Span)
  | setIncrement (id : NodeId) (increment : Increment)
  | register (enumId elementId : NodeId)

/-- A store that is put together, with the past of its enumerations and all elements that have been
registered, in order. -/
structure Draft where
  store : Store := .empty
  past : NodeId → Past := fun _ => { zero := ⟨0⟩ }
  registered : List NodeId := []

namespace Draft

/-- One step. A copy of an enumeration has the past of its original. -/
def after (draft : Draft) : Construction → Draft
  | .alloc content _ span => { draft with store := (draft.store.alloc content span).2 }
  | .allocEnum header span =>
    let (enumId, store) := draft.store.allocEnum header span
    { draft with
      store := store
      past := Function.update draft.past enumId { zero := ⟨draft.store.size⟩ } }
  | .copy id span =>
    match draft.store.content? id with
    | none => draft
    | some content =>
      let (copyId, store) := draft.store.alloc content span
      { draft with
        store := store
        past := Function.update draft.past copyId (draft.past id) }
  | .setIncrement id increment => { draft with store := draft.store.setIncrement id increment }
  | .register enumId elementId =>
    match (Store.register enumId elementId).apply draft.store with
    | (.error _, store) => { draft with store := store }
    | (.ok (), store) =>
      { store := store
        past := Function.update draft.past enumId
          { draft.past enumId with roll := (draft.past enumId).roll ++ [elementId] }
        registered := draft.registered ++ [elementId] }

/-- All steps, one after another. -/
def afterAll (draft : Draft) (steps : List Construction) : Draft := steps.foldl after draft

/-- The past accounts for every enumeration, and only elements have been registered. -/
structure Tracked (draft : Draft) : Prop where
  accounts : ∀ enumId decl, draft.store.enum? enumId = some decl →
    draft.store.Accounts (draft.past enumId).zero (draft.past enumId).roll decl
  enrolled : ∀ enumId decl, draft.store.enum? enumId = some decl →
    ∀ id ∈ (draft.past enumId).roll, id ∈ draft.registered
  present : ∀ id ∈ draft.registered, ∃ element, draft.store.element? id = some element

variable {draft : Draft} {enumId elementId id : NodeId} {decl : Enumeration}

theorem tracked_start : Tracked {} := by
  constructor
  · intro enumId decl declared
    cases declared
  · intro enumId decl declared
    cases declared
  · intro id member
    cases member

namespace Tracked

/-- A new node that is an enumeration needs a past that accounts for it. -/
theorem add (tracked : draft.Tracked) (content : Content) (span : Span) (past : Past)
    (accounts : ∀ decl, content = .enum decl →
      draft.store.Accounts past.zero past.roll decl ∧ ∀ id ∈ past.roll, id ∈ draft.registered) :
    Tracked
      { draft with
        store := (draft.store.alloc content span).2
        past := Function.update draft.past ⟨draft.store.size⟩ past } := by
  have known : ∀ enumId decl, (draft.store.alloc content span).2.enum? enumId = some decl →
      let past := Function.update draft.past ⟨draft.store.size⟩ past enumId
      draft.store.Accounts past.zero past.roll decl ∧ ∀ id ∈ past.roll, id ∈ draft.registered := by
    intro enumId decl declared
    rw [Store.enum?_eq_some_iff, Store.content?_alloc] at declared
    split at declared
    · next isNew =>
      rw [isNew, Function.update_self]
      exact accounts decl (Option.some.inj declared)
    · next isOld =>
      rw [← Store.enum?_eq_some_iff] at declared
      rw [Function.update_of_ne isOld]
      exact ⟨tracked.accounts enumId decl declared, tracked.enrolled enumId decl declared⟩
  have elements : ∀ id ∈ draft.registered,
      (draft.store.alloc content span).2.element? id = draft.store.element? id := by
    intro id member
    obtain ⟨element, found⟩ := tracked.present id member
    rw [found, Store.element?_eq_some_iff]
    exact Store.content?_alloc_of_some (Store.element?_eq_some_iff.mp found) _ _
  refine ⟨?_, fun enumId decl declared => (known enumId decl declared).2, ?_⟩
  · intro enumId decl declared
    obtain ⟨account, enrolled⟩ := known enumId decl declared
    refine account.of_eq ?_ fun id member => elements id (enrolled id member)
    rw [account.starts, Store.literal?_eq_some_iff]
    exact Store.content?_alloc_of_some (Store.literal?_eq_some_iff.mp account.starts) _ _
  · intro id member
    obtain ⟨element, found⟩ := tracked.present id member
    exact ⟨element, (elements id member).trans found⟩

theorem alloc (tracked : draft.Tracked) {content : Content} (plain : content.kind ≠ .enum)
    (span : Span) : (draft.after (.alloc content plain span)).Tracked := by
  have added := tracked.add content span (draft.past ⟨draft.store.size⟩) fun decl isEnum =>
    absurd (congrArg Content.kind isEnum) plain
  rw [Function.update_eq_self] at added
  exact added

theorem allocEnum (tracked : draft.Tracked) (header : Header) (span : Span) :
    (draft.after (.allocEnum header span)).Tracked := by
  have notEnum : (Content.literal (.int 0)).kind ≠ .enum := by decide
  refine (tracked.alloc notEnum span).add _ span { zero := ⟨draft.store.size⟩ } ?_
  rintro decl ⟨⟩
  refine ⟨⟨rfl, ?_, rfl⟩, ?_⟩
  · rw [Store.literal?_eq_some_iff, after, Store.content?_alloc]
    exact if_pos rfl
  · intro id member
    cases member

theorem copy (tracked : draft.Tracked) (id : NodeId) (span : Span) :
    (draft.after (.copy id span)).Tracked := by
  rw [after]
  cases original : draft.store.content? id with
  | none => exact tracked
  | some content =>
    refine tracked.add content span (draft.past id) ?_
    rintro decl rfl
    rw [← Store.enum?_eq_some_iff] at original
    exact ⟨tracked.accounts id decl original, tracked.enrolled id decl original⟩

theorem setIncrement (tracked : draft.Tracked) (id : NodeId) (increment : Increment) :
    (draft.after (.setIncrement id increment)).Tracked := by
  refine ⟨?_, ?_, ?_⟩
  · intro enumId changed found
    obtain ⟨decl, declared, sameMembers, sameLast⟩ := Store.enum?_setIncrement found
    have account := tracked.accounts enumId decl declared
    have still := account.of_eq (draft.store.literal?_setIncrement id increment _) fun other _ =>
      draft.store.element?_setIncrement id increment other
    exact ⟨sameMembers ▸ still.members, still.starts, sameLast ▸ still.latest⟩
  · intro enumId changed found
    obtain ⟨decl, declared, -⟩ := Store.enum?_setIncrement found
    exact tracked.enrolled enumId decl declared
  · intro other member
    rw [after, Store.element?_setIncrement]
    exact tracked.present other member

/-- An element that has not been registered before is in no account but that of its enumeration. -/
theorem enter (tracked : draft.Tracked) {element : Element} {origin : Origin}
    (admits : draft.store.Admits enumId elementId decl element origin)
    (isNew : elementId ∉ draft.registered) :
    Tracked
      { store := draft.store.entered enumId elementId decl element origin
        past := Function.update draft.past enumId
          { draft.past enumId with roll := (draft.past enumId).roll ++ [elementId] }
        registered := draft.registered ++ [elementId] } := by
  have elements : ∀ id ∈ draft.registered,
      (draft.store.entered enumId elementId decl element origin).element? id =
        draft.store.element? id := by
    intro id member
    apply admits.element?_of_ne
    rintro rfl
    exact isNew member
  refine ⟨?_, ?_, ?_⟩
  · intro other otherDecl declared
    dsimp only at declared ⊢
    by_cases same : other = enumId
    · subst same
      rw [admits.enum?_self] at declared
      cases declared
      rw [Function.update_self]
      exact (tracked.accounts other decl admits.declared).enter admits fun id member =>
        elements id (tracked.enrolled other decl admits.declared id member)
    · -- Another enumeration does not list the element, or it would have been registered before.
      rw [admits.enum?_of_ne same] at declared
      rw [Function.update_of_ne same]
      have account := tracked.accounts other otherDecl declared
      refine account.of_eq (admits.literal?_of_some account.starts) fun id member =>
        elements id (tracked.enrolled other otherDecl declared id member)
  · intro other otherDecl declared id member
    dsimp only at declared member ⊢
    by_cases same : other = enumId
    · subst same
      rw [Function.update_self] at member
      rcases List.mem_append.mp member with old | new
      · exact List.mem_append_left _ (tracked.enrolled other decl admits.declared id old)
      · exact List.mem_append_right _ new
    · rw [admits.enum?_of_ne same] at declared
      rw [Function.update_of_ne same] at member
      exact List.mem_append_left _ (tracked.enrolled other otherDecl declared id member)
  · intro id member
    rcases List.mem_append.mp member with old | new
    · obtain ⟨present, found⟩ := tracked.present id old
      exact ⟨present, (elements id old).trans found⟩
    · cases List.mem_singleton.mp new
      exact ⟨_, admits.element?_self⟩

theorem register (tracked : draft.Tracked)
    (once : (draft.after (.register enumId elementId)).registered.Nodup) :
    (draft.after (.register enumId elementId)).Tracked := by
  rw [after] at once ⊢
  cases attempt : (Store.register enumId elementId).apply draft.store with
  | mk outcome left =>
    cases outcome with
    | error error =>
      cases (Store.register_eq_error_iff.mp attempt).2
      exact tracked
    | ok =>
      obtain ⟨decl, element, origin, admits, rfl⟩ := Store.register_eq_ok_iff.mp attempt
      rw [attempt] at once
      have isNew : elementId ∉ draft.registered := by
        intro member
        exact (List.nodup_append.mp once).2.2 elementId member elementId List.mem_cons_self rfl
      exact tracked.enter admits isNew

/-- What every step keeps. -/
theorem after (tracked : draft.Tracked) (step : Construction)
    (once : (draft.after step).registered.Nodup) : (draft.after step).Tracked := by
  cases step with
  | alloc content plain span => exact tracked.alloc plain span
  | allocEnum header span => exact tracked.allocEnum header span
  | copy id span => exact tracked.copy id span
  | setIncrement id increment => exact tracked.setIncrement id increment
  | register enumId elementId => exact tracked.register once

end Tracked

/-- What has been registered stays in the list. -/
theorem registered_prefix_after (draft : Draft) (step : Construction) :
    draft.registered <+: (draft.after step).registered := by
  cases step with
  | alloc content plain span => exact List.prefix_rfl
  | allocEnum header span => exact List.prefix_rfl
  | copy id span =>
    rw [after]
    split <;> exact List.prefix_rfl
  | setIncrement id increment => exact List.prefix_rfl
  | register enumId elementId =>
    rw [after]
    split
    · exact List.prefix_rfl
    · exact List.prefix_append _ _

theorem registered_prefix_afterAll (draft : Draft) (steps : List Construction) :
    draft.registered <+: (draft.afterAll steps).registered := by
  induction steps generalizing draft with
  | nil => exact List.prefix_rfl
  | cons step steps ih => exact (draft.registered_prefix_after step).trans (ih _)

theorem Tracked.afterAll {steps : List Construction} (tracked : draft.Tracked)
    (once : (draft.afterAll steps).registered.Nodup) : (draft.afterAll steps).Tracked := by
  induction steps generalizing draft with
  | nil => exact tracked
  | cons step steps ih =>
    have before := registered_prefix_afterAll (draft.after step) steps
    exact ih (tracked.after step (once.sublist before.sublist)) once

/-- A further registration leaves the elements registered before as they are. -/
theorem Tracked.keeps (tracked : draft.Tracked) {final : Store}
    (registered : (Store.register enumId elementId).apply draft.store = (.ok (), final))
    (isNew : elementId ∉ draft.registered) (member : id ∈ draft.registered) :
    draft.store.Keeps final id := by
  obtain ⟨decl, element, origin, admits, rfl⟩ := Store.register_eq_ok_iff.mp registered
  obtain ⟨present, found⟩ := tracked.present id member
  constructor
  · have stands := Store.get?_of_content? (Store.element?_eq_some_iff.mp found)
    rw [stands]
    refine admits.get?_of_ne (Store.ne_of_enum_of_element admits.declared found) ?_ stands
    rintro rfl
    exact isNew member
  · intro _ value literal _ _ isLiteral
    have stands := Store.get?_of_content? (Store.literal?_eq_some_iff.mp isLiteral)
    rw [stands]
    exact admits.get?_of_literal stands

/-- Registering only adds, and however declarations are put together, as long as no element is
registered twice, every enumeration holds what was registered with it. -/
theorem registration_appends :
    (∀ (store final : Store) (enumId elementId : NodeId),
      (Store.register enumId elementId).apply store = (.ok (), final) →
      ∃ decl element, store.Appended final enumId elementId decl element) ∧
    ∀ (draft : Draft) (steps : List Construction),
      draft = afterAll {} steps → draft.registered.Nodup →
      (∀ enumId decl, draft.store.enum? enumId = some decl →
        draft.store.Accounts (draft.past enumId).zero (draft.past enumId).roll decl) ∧
      ∀ (enumId elementId : NodeId) (final : Store),
        (Store.register enumId elementId).apply draft.store = (.ok (), final) →
        elementId ∉ draft.registered → ∀ id ∈ draft.registered, draft.store.Keeps final id := by
  constructor
  · intro store final enumId elementId registered
    obtain ⟨decl, element, origin, admits, rfl⟩ := Store.register_eq_ok_iff.mp registered
    exact ⟨decl, element, admits.appended⟩
  · rintro draft steps rfl once
    have tracked := tracked_start.afterAll once
    exact ⟨tracked.accounts, fun _ _ _ registered isNew _ member =>
      tracked.keeps registered isNew member⟩

/-- An enumeration and a copy of it that counts in fives, with their elements. -/
def palette : List Construction :=
  [.allocEnum { name := ⟨1⟩ } ⟨0, 20⟩,
    .alloc (.element { header := { name := ⟨2⟩ } }) (by decide) ⟨7, 10⟩,
    .alloc (.element { header := .foreign ⟨3⟩ none }) (by decide) ⟨12, 17⟩,
    .alloc (.element { header := { name := ⟨4⟩ } }) (by decide) ⟨30, 34⟩,
    .register ⟨1⟩ ⟨2⟩,
    .copy ⟨1⟩ ⟨22, 40⟩,
    .setIncrement ⟨6⟩ ⟨.add, 5⟩,
    .register ⟨1⟩ ⟨3⟩,
    .register ⟨6⟩ ⟨4⟩,
    .alloc (.element { header := { name := ⟨5⟩ } }) (by decide) ⟨36, 38⟩]

theorem registration_appends_palette :
    (afterAll {} palette).registered.Nodup ∧
    (∃ decl, (afterAll {} palette).store.enum? ⟨1⟩ = some decl ∧ decl.lastValue = ⟨5⟩ ∧
      (afterAll {} palette).store.Accounts ⟨0⟩ [⟨2⟩, ⟨3⟩] decl) ∧
    (∃ decl, (afterAll {} palette).store.enum? ⟨6⟩ = some decl ∧ decl.lastValue = ⟨7⟩ ∧
      (afterAll {} palette).store.Accounts ⟨0⟩ [⟨2⟩, ⟨4⟩] decl) ∧
    ∃ final decl element,
      (Store.register ⟨6⟩ ⟨8⟩).apply (afterAll {} palette).store = (.ok (), final) ∧
      (afterAll {} palette).store.Appended final ⟨6⟩ ⟨8⟩ decl element ∧
      (afterAll {} palette).store.Keeps final ⟨4⟩ := by
  have once : (afterAll {} palette).registered.Nodup := by decide
  obtain ⟨accounts, keeps⟩ := registration_appends.2 _ palette rfl once
  have registered : (Store.register ⟨6⟩ ⟨8⟩).apply (afterAll {} palette).store =
      (.ok (), ((Store.register ⟨6⟩ ⟨8⟩).apply (afterAll {} palette).store).2) :=
    Prod.ext rfl rfl
  obtain ⟨decl, element, appended⟩ := registration_appends.1 _ _ _ _ registered
  exact ⟨once, ⟨_, rfl, rfl, accounts ⟨1⟩ _ rfl⟩, ⟨_, rfl, rfl, accounts ⟨6⟩ _ rfl⟩,
    _, decl, element, registered, appended,
    keeps _ _ _ registered (by decide) ⟨4⟩ (by decide)⟩

end Draft

end Declarations
