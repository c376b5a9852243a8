import Declarations.Proofs.Progression

/-!
# Foreign elements among the others

A foreign element is given no value and leaves the latest value alone, so one would leave it out
without a change to the rest. Two runs are compared here, one with the foreign elements and one
without. They keep in step, with one exception: a foreign element that comes first makes the
enumeration nonempty, and then the first value that is computed is not zero but what follows it.
-/

namespace Declarations

theorem fitsInt64_applyInt_zero (rule : Increment) : fitsInt64 (rule.applyInt 0) = true := by
  have lower := Int64.le_toInt rule.step
  have upper := Int64.toInt_lt rule.step
  rw [fitsInt64_iff, Increment.applyInt]
  cases rule.op <;> dsimp only <;> omega

theorem Literal.increment_zero {rule : Increment} (still : rule.applyInt 0 = 0) :
    (int 0).increment rule = .ok (.int 0) := by
  change incrementInt (.int 0) rule = _
  rw [incrementInt, Int64.toInt_zero, still]
  rfl

namespace Store

variable {store base full kept left : Store} {enumId id : NodeId} {decl : Enumeration}
  {element : Element} {origin : Origin} {members : Members} {ids : List NodeId} {value : Int}
  {span : Span}

/-- The content of a node that no registration changes. -/
def fixed? (store : Store) (id : NodeId) : Option Content :=
  (store.content? id).filter fun content => content.kind != .enum && content.kind != .element

theorem fixed?_eq_some_iff {content : Content} : store.fixed? id = some content ↔
    store.content? id = some content ∧ content.kind ≠ .enum ∧ content.kind ≠ .element := by
  simp [fixed?, Option.filter_eq_some_iff]

theorem literal?_eq_of_fixed? (same : kept.fixed? id = full.fixed? id) :
    kept.literal? id = full.literal? id := by
  apply Option.ext
  intro value
  have reads : ∀ store : Store,
      store.literal? id = some value ↔ store.fixed? id = some (.literal value) := by
    simp [literal?_eq_some_iff, fixed?_eq_some_iff, Content.kind]
  rw [reads, reads, same]

theorem typeRef?_eq_of_fixed? (same : kept.fixed? id = full.fixed? id) :
    kept.typeRef? id = full.typeRef? id := by
  apply Option.ext
  intro reference
  have reads : ∀ store : Store,
      store.typeRef? id = some reference ↔ store.fixed? id = some (.typeRef reference) := by
    simp [typeRef?_eq_some_iff, fixed?_eq_some_iff, Content.kind]
  rw [reads, reads, same]

/-- A foreign element under a new name is registered. -/
theorem Awaits.admits_foreign (awaits : store.Awaits decl (id :: ids))
    (declared : store.enum? enumId = some decl) (foreign : store.isForeignElement id = true) :
    ∃ element, element.header.isForeign = true ∧
      store.Admits enumId id decl element .foreign := by
  obtain ⟨element, found, isForeign⟩ := isForeignElement_iff.mp foreign
  obtain ⟨_, same, unused⟩ := awaits.unused id List.mem_cons_self
  cases Option.some.inj (found.symm.trans same)
  exact ⟨element, isForeign, declared, found, Members.get?_eq_none_of_not_contains unused,
    originOf_foreign isForeign⟩

theorem Admits.fixed?_entered (admits : store.Admits enumId id decl element origin)
    (other : NodeId) : (store.entered enumId id decl element origin).fixed? other =
      (origin.grow store (store.span decl.lastValue)).fixed? other := by
  have grownEnum := content?_grow_of_some (enum?_eq_some_iff.mp admits.declared)
    (store.span decl.lastValue) origin
  have grownElement := content?_grow_of_some (element?_eq_some_iff.mp admits.found)
    (store.span decl.lastValue) origin
  rw [fixed?, fixed?, entered, content?_setContent, content?_setContent]
  by_cases isEnum : enumId = other
  · subst isEnum
    rw [if_pos rfl, if_neg (ne_of_enum_of_element admits.declared admits.found), grownEnum]
    rfl
  · rw [if_neg isEnum]
    by_cases isElement : id = other
    · subst isElement
      rw [if_pos rfl, grownElement]
      rfl
    · rw [if_neg isElement]

theorem span_alloc (store : Store) (content : Content) (span : Span) (id : NodeId) :
    (store.alloc content span).2.span id = if id = ⟨store.size⟩ then span else store.span id := by
  rw [Store.span, get?_alloc, alloc]
  split <;> rfl

theorem span_entered (store : Store) (enumId elementId : NodeId) (decl : Enumeration)
    (element : Element) (origin : Origin) (id : NodeId) :
    (store.entered enumId elementId decl element origin).span id =
      (origin.grow store (store.span decl.lastValue)).span id := by
  simp [entered, setContent]

/-- The literal that an element has as its value. -/
def valueLiteral? (store : Store) (id : NodeId) : Option Literal :=
  (store.element? id).bind fun element => element.value.bind store.literal?

/-- Registering elements one after another is the same without the foreign ones, as far as the
others are concerned: they have the same outcomes and become the same, with the same values. -/
structure Unmoved (store : Store) (enumId : NodeId) (ids : List NodeId) : Prop where
  outcomes : (store.registerEach enumId (store.withoutForeign ids)).1 =
    (store.registerEach enumId ids).1.filter fun outcome => !store.isForeignElement outcome.1
  elements : ∀ id ∈ store.withoutForeign ids,
    (store.registerEach enumId (store.withoutForeign ids)).2.element? id =
      (store.registerEach enumId ids).2.element? id
  values : ∀ id ∈ store.withoutForeign ids,
    (store.registerEach enumId (store.withoutForeign ids)).2.valueLiteral? id =
      (store.registerEach enumId ids).2.valueLiteral? id

/-- A foreign element comes first, the first that is not foreign has no value from its author, and
the rule leads away from zero. -/
structure Shifts (store : Store) (rule : Increment) (ids : List NodeId) : Prop where
  led : ids.head?.any store.isForeignElement = true
  implicit : (store.withoutForeign ids).head?.any store.isImplicit = true
  moves : rule.applyInt 0 ≠ 0

/-- The store of a run without the elements that are foreign in `base`, beside that of the full run.
The enumeration has fewer members, and the foreign elements need not be registered. -/
structure Follows (base full kept : Store) (enumId : NodeId) (decl : Enumeration)
    (members : Members) : Prop where
  declared : full.enum? enumId = some decl
  reduced : kept.enum? enumId = some { decl with members := members }
  plain : decl.header.isForeign = false
  fewer : ∀ name, decl.members.contains name = false → members.contains name = false
  begun : members.isEmpty = false → decl.members.isEmpty = false
  size : kept.size = full.size
  span : ∀ id, kept.span id = full.span id
  fixed : ∀ id, kept.fixed? id = full.fixed? id
  elements : ∀ id, base.isForeignElement id = false → kept.element? id = full.element? id

/-- As long as the run without foreign elements has no member, the value still to come from it is
zero, and the full run has no other value to give to the next element. -/
def InStep (base full : Store) (decl : Enumeration) (members : Members) (ids : List NodeId) :
    Prop :=
  members.isEmpty = true → full.literal? decl.lastValue = some (.int 0) ∧
    (decl.increment.applyInt 0 = 0 ∨
      (base.withoutForeign ids).head?.any base.isImplicit = false ∨
      decl.members.isEmpty = true ∧ ids.head?.any base.isForeignElement = false)

theorem nextLiteral_zero (zero : store.literal? decl.lastValue = some (.int 0))
    (still : decl.increment.applyInt 0 = 0 ∨ decl.members.isEmpty = true) (id : NodeId) :
    store.nextLiteral decl id = .ok (.int 0) := by
  rw [nextLiteral, zero]
  dsimp only
  split
  · rfl
  · next begun =>
    rw [Literal.increment_zero (still.resolve_right begun)]

namespace Follows

theorem literal?_eq (follows : base.Follows full kept enumId decl members) (id : NodeId) :
    kept.literal? id = full.literal? id :=
  literal?_eq_of_fixed? (follows.fixed id)

theorem underlyingName_eq (follows : base.Follows full kept enumId decl members) :
    kept.underlyingName { decl with members := members } = full.underlyingName decl := by
  have same : kept.typeRef? = full.typeRef? :=
    funext fun id => typeRef?_eq_of_fixed? (follows.fixed id)
  rw [underlyingName, underlyingName, same]

theorem nextLiteral_eq (follows : base.Follows full kept enumId decl members)
    (same : members.isEmpty = decl.members.isEmpty) (id : NodeId) :
    kept.nextLiteral { decl with members := members } id = full.nextLiteral decl id := by
  rw [nextLiteral, nextLiteral, follows.underlyingName_eq, follows.literal?_eq]
  dsimp only
  rw [same]

theorem nextLiteral_first (follows : base.Follows full kept enumId decl members)
    (zero : full.literal? decl.lastValue = some (.int 0)) (waits : members.isEmpty = true)
    (id : NodeId) : kept.nextLiteral { decl with members := members } id = .ok (.int 0) := by
  apply nextLiteral_zero
  · rw [follows.literal?_eq, zero]
  · exact .inr waits

/-- The next element is given its value in the same way by both runs. -/
theorem originOf_eq (follows : base.Follows full kept enumId decl members)
    (inStep : base.InStep full decl members (id :: ids))
    (same : base.element? id = some element) (plain : element.header.isForeign = false) :
    kept.originOf { decl with members := members } id element = full.originOf decl id element := by
  cases given : element.explicitValue? with
  | some value =>
    rw [originOf_author follows.plain plain given, originOf_author _ plain given]
    exact follows.plain
  | none =>
    rw [originOf_implicit follows.plain plain given, originOf_implicit _ plain given]
    · congr 1
      cases waits : members.isEmpty with
      | false => exact follows.nextLiteral_eq (waits.trans (follows.begun waits).symm) id
      | true =>
        obtain ⟨zero, still⟩ := inStep waits
        have isFirst : (base.withoutForeign (id :: ids)).head?.any base.isImplicit = true := by
          simp [withoutForeign, isForeignElement, isImplicit, Element.isImplicit, same, plain, given]
        rw [follows.nextLiteral_first zero waits, nextLiteral_zero zero]
        rcases still with still | other | ⟨isEmpty, -⟩
        · exact .inl still
        · rw [isFirst] at other
          cases other
        · exact .inr isEmpty
    · exact follows.plain

/-- A foreign element is registered in the full run alone. -/
theorem foreign (follows : base.Follows full kept enumId decl members)
    (isForeign : base.isForeignElement id = true)
    (admits : full.Admits enumId id decl element .foreign) :
    base.Follows (full.entered enumId id decl element .foreign) kept enumId
      (decl.enter element.header.name id none) members where
  declared := admits.enum?_self
  reduced := follows.reduced
  plain := follows.plain
  fewer name unused := by
    rw [Enumeration.enter, Members.contains_enter, Bool.or_eq_false_iff] at unused
    exact follows.fewer name unused.2
  begun _ := Members.isEmpty_enter _ _ _
  size := by
    rw [Admits.size_entered]
    exact follows.size
  span other := by
    rw [span_entered]
    exact follows.span other
  fixed other := by
    rw [admits.fixed?_entered]
    exact follows.fixed other
  elements other isPlain := by
    rw [admits.element?_of_ne, follows.elements other isPlain]
    rintro rfl
    rw [isForeign] at isPlain
    cases isPlain

/-- Another element is registered in both runs. -/
theorem plainStep (follows : base.Follows full kept enumId decl members)
    (admits : full.Admits enumId id decl element origin)
    (admitsKept : kept.Admits enumId id { decl with members := members } element origin) :
    base.Follows (full.entered enumId id decl element origin)
      (kept.entered enumId id { decl with members := members } element origin) enumId
      (decl.enter element.header.name id (origin.value? ⟨full.size⟩))
      (members.enter element.header.name id) where
  declared := admits.enum?_self
  reduced := by
    rw [admitsKept.enum?_self, follows.size]
    rfl
  plain := follows.plain
  fewer name unused := by
    rw [Enumeration.enter, Members.contains_enter, Bool.or_eq_false_iff] at unused
    rw [Members.contains_enter, unused.1, follows.fewer name unused.2]
    rfl
  begun _ := Members.isEmpty_enter _ _ _
  size := by
    rw [Admits.size_entered, Admits.size_entered]
    cases origin <;> simp [Origin.grow, follows.size]
  span other := by
    rw [span_entered, span_entered, follows.span]
    cases origin with
    | foreign | author => exact follows.span other
    | computed next =>
      rw [Origin.grow, Origin.grow, span_alloc, span_alloc, follows.size, follows.span other]
  fixed other := by
    rw [admits.fixed?_entered, admitsKept.fixed?_entered, follows.span]
    cases origin with
    | foreign | author => exact follows.fixed other
    | computed next =>
      rw [Origin.grow, Origin.grow, fixed?, fixed?, content?_alloc, content?_alloc, follows.size]
      split
      · rfl
      · exact follows.fixed other
  elements other isPlain := by
    by_cases same : other = id
    · subst same
      rw [admits.element?_self, admitsKept.element?_self, follows.size]
    · rw [admits.element?_of_ne same, admitsKept.element?_of_ne same, follows.elements other isPlain]

/-- As long as the run without foreign elements has no member, it refuses none. -/
theorem begun_of_refused (follows : base.Follows full kept enumId decl members)
    (inStep : base.InStep full decl members ids) {error : RegistrationError}
    (refused : kept.originOf { decl with members := members } id element = .error error) :
    members.isEmpty = false := by
  cases waits : members.isEmpty with
  | false => rfl
  | true =>
    rw [originOf, follows.nextLiteral_first (inStep waits).1 waits] at refused
    split at refused
    · cases refused
    · split at refused <;> cases refused

end Follows

/-- The two runs before the elements that are still to be registered. -/
structure Paired (base full kept : Store) (enumId : NodeId) (ids : List NodeId) : Prop where
  intro ::
  exists_decl : ∃ decl members, base.Follows full kept enumId decl members ∧
    full.Awaits decl ids ∧ base.InStep full decl members ids
  untouched : ∀ id ∈ ids, full.element? id = base.element? id

namespace Paired

/-- A foreign element is registered, and the other run stays as it is. -/
theorem foreign (paired : base.Paired full kept enumId (id :: ids))
    (inBase : base.isForeignElement id = true) :
    ∃ next, (register enumId id).apply full = (.ok (), next) ∧
      base.Paired next kept enumId ids := by
  obtain ⟨⟨decl, members, follows, awaits, inStep⟩, untouched⟩ := paired
  have foreign : full.isForeignElement id = true := by
    rw [isForeignElement, untouched id List.mem_cons_self]
    exact inBase
  obtain ⟨element, -, admits⟩ := awaits.admits_foreign follows.declared foreign
  refine ⟨_, admits.registers,
    ⟨_, members, follows.foreign inBase admits, awaits.tail admits _, ?_⟩, ?_⟩
  · intro waits
    obtain ⟨zero, still⟩ := inStep waits
    constructor
    · rw [← zero]
      exact literal?_eq_of_fixed? (admits.fixed?_entered _)
    · rcases still with still | other | ⟨-, notLed⟩
      · exact .inl still
      · rw [withoutForeign_cons_of_foreign inBase] at other
        exact .inr (.inl other)
      · -- The foreign element that is registered here is the first of the list.
        rw [List.head?_cons, Option.any_some, inBase] at notLed
        cases notLed
  · intro other member
    rw [awaits.element?_eq admits member, untouched other (List.mem_cons_of_mem _ member)]

/-- Another element has the same outcome in both runs. -/
theorem plain (paired : base.Paired full kept enumId (id :: ids))
    (inBase : base.isForeignElement id = false) :
    ∃ outcome next nextKept, (register enumId id).apply full = (outcome, next) ∧
      (register enumId id).apply kept = (outcome, nextKept) ∧
      base.Paired next nextKept enumId ids := by
  obtain ⟨⟨decl, members, follows, awaits, inStep⟩, untouched⟩ := paired
  obtain ⟨element, found, unused⟩ := awaits.unused id List.mem_cons_self
  have foundBase := (untouched id List.mem_cons_self).symm.trans found
  have isPlain : element.header.isForeign = false := by
    simpa [isForeignElement, foundBase] using inBase
  have free := Members.get?_eq_none_of_not_contains unused
  have foundKept := (follows.elements id inBase).trans found
  have freeKept := Members.get?_eq_none_of_not_contains (follows.fewer _ unused)
  have sameOrigin := follows.originOf_eq inStep foundBase isPlain
  cases originates : full.originOf decl id element with
  | error error =>
    rw [originates] at sameOrigin
    -- Without a member there would be a zero to give, so both runs have begun.
    have begun := follows.begun_of_refused inStep sameOrigin
    refine ⟨.error error, full, kept, register_eq_error_iff.mpr ⟨?_, rfl⟩,
      register_eq_error_iff.mpr ⟨?_, rfl⟩, ⟨decl, members, follows, awaits.of_cons, ?_⟩, ?_⟩
    · rw [check_of_unused follows.declared found free, originates]
      rfl
    · rw [check_of_unused follows.reduced foundKept freeKept, sameOrigin]
      rfl
    · intro waits
      rw [begun] at waits
      cases waits
    · exact fun other member => untouched other (List.mem_cons_of_mem _ member)
  | ok origin =>
    rw [originates] at sameOrigin
    have admits : full.Admits enumId id decl element origin :=
      ⟨follows.declared, found, free, originates⟩
    have admitsKept : kept.Admits enumId id { decl with members := members } element origin :=
      ⟨follows.reduced, foundKept, freeKept, sameOrigin⟩
    refine ⟨.ok (), _, _, admits.registers, admitsKept.registers,
      ⟨_, _, follows.plainStep admits admitsKept, awaits.tail admits _, ?_⟩, ?_⟩
    · intro waits
      rw [Members.isEmpty_enter] at waits
      cases waits
    · intro other member
      rw [awaits.element?_eq admits member, untouched other (List.mem_cons_of_mem _ member)]

/-- The two runs keep in step to the end. -/
theorem registerEach (paired : base.Paired full kept enumId ids) :
    (kept.registerEach enumId (base.withoutForeign ids)).1 =
        ((full.registerEach enumId ids).1.filter fun outcome => !base.isForeignElement outcome.1) ∧
      base.Paired (full.registerEach enumId ids).2
        (kept.registerEach enumId (base.withoutForeign ids)).2 enumId [] := by
  induction ids generalizing full kept with
  | nil => exact ⟨rfl, paired⟩
  | cons id ids ih =>
    cases inBase : base.isForeignElement id with
    | true =>
      obtain ⟨next, registered, rest⟩ := paired.foreign inBase
      obtain ⟨outcomes, ends⟩ := ih rest
      simp [Store.registerEach, registered, withoutForeign_cons_of_foreign inBase, inBase,
        outcomes, ends]
    | false =>
      obtain ⟨outcome, next, nextKept, attempt, attemptKept, rest⟩ := paired.plain inBase
      obtain ⟨outcomes, ends⟩ := ih rest
      simp [Store.registerEach, attempt, attemptKept, withoutForeign_cons_of_plain inBase, inBase,
        outcomes, ends]

end Paired

/-- The value of a member is not touched by further attempts. -/
theorem HasValue.registerEach {node : NodeId} (has : store.HasValue id node value span)
    (taken : store.NameTaken enumId id) :
    (store.registerEach enumId ids).2.HasValue id node value span := by
  induction ids generalizing store with
  | nil => exact has
  | cons other ids ih =>
    exact ih (has.of_attempt taken rfl) (taken.of_attempt rfl).1

theorem HasValue.valueLiteral? {node : NodeId} (has : store.HasValue id node value span) :
    ∃ literal : Int64, store.valueLiteral? id = some (.int literal) ∧ literal.toInt = value := by
  obtain ⟨element, found, holds⟩ := has.holds
  obtain ⟨literal, stands, isValue⟩ := has.literal
  refine ⟨literal, ?_, isValue⟩
  simp [Store.valueLiteral?, found, holds, Store.literal?, content?, stands]

/-- An implicit element that comes after foreign ones only has the next value. -/
theorem LatestInt.registerEach {foreigns rest : List NodeId}
    (latest : store.LatestInt enumId decl value span)
    (awaits : store.Awaits decl (foreigns ++ id :: rest))
    (foreign : ∀ other ∈ foreigns, store.isForeignElement other = true)
    (implicit : store.isImplicit id = true)
    (fits : fitsInt64 (decl.increment.applyInt value) = true) :
    ∃ node, (store.registerEach enumId (foreigns ++ id :: rest)).2.HasValue id node
      (decl.increment.applyInt value) span := by
  induction foreigns generalizing store decl with
  | nil =>
    obtain ⟨element, found, isImplicit⟩ := isImplicit_iff.mp implicit
    obtain ⟨_, same, unused⟩ := awaits.unused id List.mem_cons_self
    cases Option.some.inj (found.symm.trans same)
    obtain ⟨next, admits⟩ := latest.admits_of_fits found isImplicit unused fits
    have registered := admits.registers
    have has := (latest.of_implicit found isImplicit registered).1
    rw [List.nil_append, Store.registerEach, registered]
    exact ⟨_, has.registerEach (.of_registered registered)⟩
  | cons first foreigns ih =>
    rw [List.cons_append] at awaits ⊢
    obtain ⟨element, isForeign, admits⟩ :=
      awaits.admits_foreign latest.declared (foreign first List.mem_cons_self)
    have registered := admits.registers
    rw [Store.registerEach, registered]
    apply ih (latest.of_foreign admits.found isForeign registered) (awaits.tail admits _)
    · intro other member
      rw [awaits.isForeignElement_eq admits (List.mem_append_left _ member)]
      exact foreign other (List.mem_cons_of_mem _ member)
    · rw [awaits.isImplicit_eq admits (List.mem_append_right _ List.mem_cons_self)]
      exact implicit
    · exact fits

namespace IsNew

/-- Registering a foreign element with a new enumeration leaves zero as the latest value. -/
theorem latestInt_foreign (isNew : store.IsNew enumId decl)
    (admits : store.Admits enumId id decl element .foreign) :
    (store.entered enumId id decl element .foreign).LatestInt enumId
      (decl.enter element.header.name id none) 0 (store.span decl.lastValue) :=
  have stands := get?_of_content? (literal?_eq_some_iff.mp isNew.zero)
  .of_admits admits isNew.plain ⟨0, admits.get?_of_literal stands, rfl⟩

theorem paired (isNew : store.IsNew enumId decl) (awaits : store.Awaits decl ids)
    (steady : ¬ store.Shifts decl.increment ids) : store.Paired store store enumId ids where
  exists_decl := by
    refine ⟨decl, decl.members, ⟨isNew.declared, isNew.declared, isNew.plain, fun _ => id,
      id, rfl, fun _ => rfl, fun _ => rfl, fun _ _ => rfl⟩, awaits, ?_⟩
    intro waits
    refine ⟨isNew.zero, ?_⟩
    by_contra differs
    simp only [not_or, not_and, Bool.not_eq_false] at differs
    exact steady ⟨differs.2.2 waits, differs.2.1, differs.1⟩
  untouched _ _ := rfl

/-- The value that the first element is given if foreign elements stand before it. -/
theorem hasValue_of_shifts (isNew : store.IsNew enumId decl) (awaits : store.Awaits decl ids)
    (shifts : store.Shifts decl.increment ids) : ∃ first ∈ store.withoutForeign ids,
      (∃ node, (store.registerEach enumId ids).2.HasValue first node
        (decl.increment.applyInt 0) (store.span decl.lastValue)) ∧
      ∃ node, (store.registerEach enumId (store.withoutForeign ids)).2.HasValue first node 0
        (store.span decl.lastValue) := by
  obtain ⟨first, isFirst, implicit⟩ := (Option.any_eq_true _ _).mp shifts.implicit
  obtain ⟨element, found, isImplicit⟩ := isImplicit_iff.mp implicit
  refine ⟨first, List.mem_of_mem_head? isFirst, ?_, ?_⟩
  · rw [withoutForeign, List.head?_filter, List.find?_eq_some_iff_append] at isFirst
    obtain ⟨plain, foreigns, rest, rfl, foreign⟩ := isFirst
    simp only [Bool.not_not] at foreign
    cases foreigns with
    | nil =>
      have led := shifts.led
      rw [List.nil_append, List.head?_cons, Option.any_some] at led
      rw [led] at plain
      cases plain
    | cons leader foreigns =>
      rw [List.cons_append] at awaits ⊢
      obtain ⟨leading, -, admits⟩ :=
        awaits.admits_foreign isNew.declared (foreign leader List.mem_cons_self)
      rw [registerEach, admits.registers]
      apply (isNew.latestInt_foreign admits).registerEach (awaits.tail admits _)
      · intro other member
        rw [awaits.isForeignElement_eq admits (List.mem_append_left _ member)]
        exact foreign other (List.mem_cons_of_mem _ member)
      · rw [awaits.isImplicit_eq admits (List.mem_append_right _ List.mem_cons_self)]
        exact implicit
      · exact fitsInt64_applyInt_zero _
  · obtain ⟨rest, others⟩ := List.head?_eq_some_iff.mp isFirst
    have admits := isNew.admits found isImplicit
    have registered := admits.registers
    have counted : [first][0]? = some first := rfl
    obtain ⟨node, -, has⟩ := isNew.hasValue admits (.nil _) counted
    rw [Increment.nth_zero] at has
    rw [others, registerEach, registered]
    exact ⟨node, has.registerEach (.of_registered registered)⟩

end IsNew

/-- Leaving the foreign elements out changes nothing for the others unless one comes first, and then
it changes the first value that is computed. -/
theorem unmoved_by_foreign (isNew : store.IsNew enumId decl)
    (present : ∀ id ∈ ids, (store.element? id).isSome = true)
    (distinct : (ids.map store.elementName?).Nodup) :
    (¬ store.Shifts decl.increment ids → store.Unmoved enumId ids) ∧
    (store.Shifts decl.increment ids → ∃ first ∈ store.withoutForeign ids,
      (store.registerEach enumId (store.withoutForeign ids)).2.valueLiteral? first ≠
        (store.registerEach enumId ids).2.valueLiteral? first) := by
  have awaits := isNew.awaits present distinct
  constructor
  · intro steady
    obtain ⟨outcomes, ⟨last, rest, follows, -, -⟩, -⟩ := (isNew.paired awaits steady).registerEach
    have elements : ∀ id ∈ store.withoutForeign ids,
        (store.registerEach enumId (store.withoutForeign ids)).2.element? id =
          (store.registerEach enumId ids).2.element? id := by
      intro id member
      have plain := (List.mem_filter.mp member).2
      exact follows.elements id (by simpa using plain)
    refine ⟨outcomes, elements, ?_⟩
    intro id member
    rw [valueLiteral?, valueLiteral?, elements id member, funext follows.literal?_eq]
  · intro shifts
    obtain ⟨first, member, ⟨_, has⟩, ⟨_, hasKept⟩⟩ := isNew.hasValue_of_shifts awaits shifts
    obtain ⟨next, reads, isNext⟩ := has.valueLiteral?
    obtain ⟨zero, readsKept, isZero⟩ := hasKept.valueLiteral?
    refine ⟨first, member, ?_⟩
    intro same
    rw [reads, readsKept] at same
    cases same
    exact shifts.moves (isNext.symm.trans isZero)

/-- A new enumeration, a foreign element and two implicit ones. -/
def whence : Store :=
  let (_, store) := Store.empty.allocEnum { name := ⟨1⟩ } ⟨0, 40⟩
  let (_, store) := store.alloc (.element { header := .foreign ⟨2⟩ none }) ⟨10, 18⟩
  let (_, store) := store.alloc (.element { header := { name := ⟨3⟩ } }) ⟨20, 25⟩
  (store.alloc (.element { header := { name := ⟨4⟩ } }) ⟨27, 31⟩).2

theorem unmoved_by_foreign_whence :
    whence.Unmoved ⟨1⟩ [⟨3⟩, ⟨2⟩, ⟨4⟩] ∧ ¬ whence.Unmoved ⟨1⟩ [⟨2⟩, ⟨3⟩, ⟨4⟩] := by
  have isNew : whence.IsNew ⟨1⟩ { header := { name := ⟨1⟩ }, lastValue := ⟨0⟩ } :=
    ⟨rfl, rfl, rfl, rfl⟩
  constructor
  · apply (unmoved_by_foreign isNew (by decide) (by decide)).1
    intro shifts
    exact absurd shifts.led (by decide)
  · intro unmoved
    have present : ∀ id ∈ [⟨2⟩, ⟨3⟩, ⟨4⟩], (whence.element? id).isSome = true := by decide
    obtain ⟨first, member, moved⟩ := (unmoved_by_foreign isNew present (by decide)).2
      ⟨by decide, by decide, by decide⟩
    exact moved (unmoved.values first member)

/-- With a foreign element in front, the first value that is computed is one and not zero. -/
theorem moved_by_leading_foreign :
    whence.IsNew ⟨1⟩ { header := { name := ⟨1⟩ }, lastValue := ⟨0⟩ } ∧
    (∀ id ∈ [⟨2⟩, ⟨3⟩], (whence.element? id).isSome = true) ∧
    ([⟨2⟩, ⟨3⟩].map whence.elementName?).Nodup ∧
    whence.withoutForeign [⟨2⟩, ⟨3⟩] = [⟨3⟩] ∧
    (whence.registerEach ⟨1⟩ [⟨3⟩]).2.valueLiteral? ⟨3⟩ = some (.int 0) ∧
    (whence.registerEach ⟨1⟩ [⟨2⟩, ⟨3⟩]).2.valueLiteral? ⟨3⟩ = some (.int 1) ∧
    ¬ whence.Unmoved ⟨1⟩ [⟨2⟩, ⟨3⟩] := by
  refine ⟨⟨rfl, rfl, rfl, rfl⟩, by decide, by decide, by decide, by decide, by decide, ?_⟩
  intro unmoved
  exact absurd (unmoved.values ⟨3⟩ (by decide)) (by decide)

end Store

end Declarations
