import Declarations.Proofs.Registration
import Mathlib.Tactic.Ring

/-!
# The values that an enumeration computes

Values computed from an integer are the terms of an arithmetic or a geometric progression, over all
integers: elements that are foreign or refused in between do not count, and a term is refused
exactly if it does not fit sixty-four signed bits. A new enumeration begins with zero itself.
-/

namespace Declarations

namespace Increment

/-- The integer that so many steps lead to, whether it fits or not. -/
def nth (increment : Increment) (start : Int) (count : Nat) : Int :=
  match increment.op with
  | .add => start + count * increment.step.toInt
  | .mul => start * increment.step.toInt ^ count

@[simp] theorem nth_zero (increment : Increment) (start : Int) : increment.nth start 0 = start := by
  rw [nth]
  split <;> simp

theorem nth_applyInt (increment : Increment) (start : Int) (count : Nat) :
    increment.nth (increment.applyInt start) count = increment.nth start (count + 1) := by
  rw [nth, nth, applyInt]
  cases increment.op with
  | add =>
    push_cast
    ring
  | mul => ring

theorem applyInt_nth (increment : Increment) (start : Int) (count : Nat) :
    increment.applyInt (increment.nth start count) = increment.nth start (count + 1) := by
  rw [nth, nth, applyInt]
  cases increment.op with
  | add =>
    push_cast
    ring
  | mul => ring

theorem nth_standard (start : Int) (count : Nat) : standard.nth start count = start + count := by
  simp [nth, standard]

end Increment

theorem fitsInt64_iff {value : Int} :
    fitsInt64 value = true ↔ -2 ^ 63 ≤ value ∧ value ≤ 2 ^ 63 - 1 := by
  simp [fitsInt64]

namespace Literal

theorem increment_int_of_fits {value : Int64} {rule : Increment}
    (fits : fitsInt64 (rule.applyInt value.toInt) = true) :
    ∃ next : Int64, (int value).increment rule = .ok (.int next) ∧
      next.toInt = rule.applyInt value.toInt := by
  refine ⟨Int64.ofInt (rule.applyInt value.toInt), if_pos fits, ?_⟩
  rw [fitsInt64_iff] at fits
  exact Int64.toInt_ofInt_of_le fits.1 (by omega)

theorem increment_int_of_not_fits {value : Int64} {rule : Increment}
    (unfit : fitsInt64 (rule.applyInt value.toInt) = false) :
    (int value).increment rule = .error .overflow :=
  if_neg (by simp [unfit])

end Literal

namespace Store

variable {store left final : Store} {enumId id : NodeId} {decl : Enumeration} {element : Element}
  {value : Int} {span : Span} {ids : List NodeId}

/-- The value of an element is the literal of an integer. -/
structure HasValue (store : Store) (id node : NodeId) (value : Int) (span : Span) : Prop where
  holds : ∃ element, store.element? id = some element ∧ element.value = some node
  literal : ∃ literal : Int64,
    store.get? node = some ⟨.literal (.int literal), span⟩ ∧ literal.toInt = value

/-- Attempts to register elements with an enumeration, one after another. Some are refused, some
elements are foreign, and the list holds the implicit ones that were registered, in order. -/
inductive Sequence (enumId : NodeId) : Store → List NodeId → Store → Prop
  | nil (store : Store) : Sequence enumId store [] store
  | refused {store left final : Store} {id : NodeId} {ids : List NodeId} {error : RegistrationError}
      (attempt : (register enumId id).apply store = (.error error, left))
      (rest : Sequence enumId left ids final) : Sequence enumId store ids final
  | foreign {store left final : Store} {id : NodeId} {ids : List NodeId}
      (foreign : store.isForeignElement id = true)
      (attempt : (register enumId id).apply store = (.ok (), left))
      (rest : Sequence enumId left ids final) : Sequence enumId store ids final
  | implicit {store left final : Store} {id : NodeId} {ids : List NodeId}
      (implicit : store.isImplicit id = true)
      (attempt : (register enumId id).apply store = (.ok (), left))
      (rest : Sequence enumId left ids final) : Sequence enumId store (id :: ids) final

/-- A plain enumeration with members, the latest value of which is the literal of an integer. -/
structure LatestInt (store : Store) (enumId : NodeId) (decl : Enumeration) (value : Int)
    (span : Span) : Prop where
  declared : store.enum? enumId = some decl
  plain : decl.header.isForeign = false
  begun : decl.members.isEmpty = false
  latest : ∃ literal : Int64,
    store.get? decl.lastValue = some ⟨.literal (.int literal), span⟩ ∧ literal.toInt = value

namespace HasValue

variable {node : NodeId}

/-- The value of a member is not touched by a further attempt. -/
theorem of_attempt {other : NodeId} {outcome : Except RegistrationError Unit}
    (has : store.HasValue id node value span) (taken : store.NameTaken enumId id)
    (attempt : (register enumId other).apply store = (outcome, left)) :
    left.HasValue id node value span := by
  obtain ⟨element, found, holds⟩ := has.holds
  obtain ⟨literal, stands, isValue⟩ := has.literal
  have same := (taken.of_attempt attempt).2
  exact ⟨⟨element, same.trans found, holds⟩,
    ⟨literal, get?_literal_of_attempt attempt stands, isValue⟩⟩

theorem of_sequence (has : store.HasValue id node value span) (taken : store.NameTaken enumId id)
    (sequence : Sequence enumId store ids final) : final.HasValue id node value span := by
  induction sequence with
  | nil => exact has
  | refused attempt _ ih | foreign _ attempt _ ih | implicit _ attempt _ ih =>
    exact ih (has.of_attempt taken attempt) (taken.of_attempt attempt).1

end HasValue

namespace LatestInt

/-- The latest value of an enumeration that has just been given a member. -/
theorem of_admits {origin : Origin} {elementId : NodeId}
    (admits : store.Admits enumId elementId decl element origin)
    (plain : decl.header.isForeign = false)
    (latest : ∃ literal : Int64,
      (store.entered enumId elementId decl element origin).get?
        ((origin.value? ⟨store.size⟩).getD decl.lastValue) =
          some ⟨.literal (.int literal), span⟩ ∧ literal.toInt = value) :
    (store.entered enumId elementId decl element origin).LatestInt enumId
      (decl.enter element.header.name elementId (origin.value? ⟨store.size⟩)) value span where
  declared := admits.enum?_self
  plain := plain
  begun := Members.isEmpty_enter _ _ _
  latest := latest

theorem exists_literal (latest : store.LatestInt enumId decl value span) :
    ∃ literal : Int64, store.literal? decl.lastValue = some (.int literal) ∧
      literal.toInt = value := by
  obtain ⟨literal, stands, isValue⟩ := latest.latest
  refine ⟨literal, ?_, isValue⟩
  rw [literal?, content?, stands]
  rfl

theorem span_eq (latest : store.LatestInt enumId decl value span) :
    store.span decl.lastValue = span := by
  obtain ⟨literal, stands, -⟩ := latest.latest
  rw [Store.span, stands]
  rfl

theorem nextLiteral_of_fits (latest : store.LatestInt enumId decl value span)
    (fits : fitsInt64 (decl.increment.applyInt value) = true) (id : NodeId) :
    ∃ next : Int64, store.nextLiteral decl id = .ok (.int next) ∧
      next.toInt = decl.increment.applyInt value := by
  obtain ⟨literal, read, rfl⟩ := latest.exists_literal
  obtain ⟨next, follows, exact⟩ := Literal.increment_int_of_fits fits
  refine ⟨next, ?_, exact⟩
  simp [nextLiteral, read, latest.begun, follows]

theorem nextLiteral_of_not_fits (latest : store.LatestInt enumId decl value span)
    (unfit : fitsInt64 (decl.increment.applyInt value) = false) (id : NodeId) :
    store.nextLiteral decl id = .error (.overflow id (store.underlyingName decl)) := by
  obtain ⟨literal, read, rfl⟩ := latest.exists_literal
  simp [nextLiteral, read, latest.begun, Literal.increment_int_of_not_fits unfit]

/-- An implicit element under a new name is given the next value, if that fits. -/
theorem admits_of_fits (latest : store.LatestInt enumId decl value span)
    (found : store.element? id = some element) (implicit : element.isImplicit = true)
    (unused : decl.members.contains element.header.name = false)
    (fits : fitsInt64 (decl.increment.applyInt value) = true) :
    ∃ next, store.Admits enumId id decl element (.computed next) := by
  obtain ⟨plain, notGiven⟩ := Element.isImplicit_iff.mp implicit
  obtain ⟨next, follows, -⟩ := latest.nextLiteral_of_fits fits id
  refine ⟨.int next, latest.declared, found, Members.get?_eq_none_of_not_contains unused, ?_⟩
  rw [originOf_implicit latest.plain plain notGiven, follows]
  rfl

/-- An implicit element under a new name is refused if the next value does not fit. -/
theorem register_of_not_fits (latest : store.LatestInt enumId decl value span)
    (found : store.element? id = some element) (implicit : element.isImplicit = true)
    (unused : decl.members.contains element.header.name = false)
    (unfit : fitsInt64 (decl.increment.applyInt value) = false) :
    (register enumId id).apply store =
      (.error (.overflow id (store.underlyingName decl)), store) := by
  obtain ⟨plain, notGiven⟩ := Element.isImplicit_iff.mp implicit
  have free := Members.get?_eq_none_of_not_contains unused
  rw [register_eq_error_iff, check_of_unused latest.declared found free,
    originOf_implicit latest.plain plain notGiven, latest.nextLiteral_of_not_fits unfit]
  exact ⟨rfl, rfl⟩

/-- An implicit element that is registered has the next value, which is then the latest. -/
theorem of_implicit (latest : store.LatestInt enumId decl value span)
    (found : store.element? id = some element) (implicit : element.isImplicit = true)
    (registered : (register enumId id).apply store = (.ok (), left)) :
    left.HasValue id ⟨store.size⟩ (decl.increment.applyInt value) span ∧
      left.LatestInt enumId (decl.enter element.header.name id (some ⟨store.size⟩))
        (decl.increment.applyInt value) span := by
  obtain ⟨decl', element', origin, admits, rfl⟩ := register_eq_ok_iff.mp registered
  cases Option.some.inj (admits.declared.symm.trans latest.declared)
  cases Option.some.inj (admits.found.symm.trans found)
  obtain ⟨plain, notGiven⟩ := Element.isImplicit_iff.mp implicit
  have originates := admits.originates
  rw [originOf_implicit latest.plain plain notGiven] at originates
  cases fits : fitsInt64 (decl.increment.applyInt value) with
  | false =>
    rw [latest.nextLiteral_of_not_fits fits] at originates
    cases originates
  | true =>
    obtain ⟨next, follows, exact⟩ := latest.nextLiteral_of_fits fits id
    rw [follows] at originates
    cases originates
    have stands := admits.get?_fresh
    rw [latest.span_eq] at stands
    exact ⟨⟨⟨_, admits.element?_self, rfl⟩, ⟨next, stands, exact⟩⟩,
      of_admits admits latest.plain ⟨next, stands, exact⟩⟩

/-- A foreign element that is registered leaves the latest value alone. -/
theorem of_foreign (latest : store.LatestInt enumId decl value span)
    (found : store.element? id = some element) (foreign : element.header.isForeign = true)
    (registered : (register enumId id).apply store = (.ok (), left)) :
    left.LatestInt enumId (decl.enter element.header.name id none) value span := by
  obtain ⟨decl', element', origin, admits, rfl⟩ := register_eq_ok_iff.mp registered
  cases Option.some.inj (admits.declared.symm.trans latest.declared)
  cases Option.some.inj (admits.found.symm.trans found)
  have originates := admits.originates
  rw [originOf_foreign foreign] at originates
  cases originates
  obtain ⟨literal, stands, isValue⟩ := latest.latest
  exact of_admits admits latest.plain ⟨literal, admits.get?_of_literal stands, isValue⟩

end LatestInt

namespace Sequence

/-- Along a sequence the rule is kept, and the latest value is the last term. -/
theorem latestInt (sequence : Sequence enumId store ids final)
    (latest : store.LatestInt enumId decl value span) :
    ∃ later, final.LatestInt enumId later (decl.increment.nth value ids.length) span ∧
      later.increment = decl.increment := by
  induction sequence generalizing decl value with
  | nil => exact ⟨decl, by simpa using latest, rfl⟩
  | refused attempt _ ih =>
    cases (register_eq_error_iff.mp attempt).2
    exact ih latest
  | foreign foreign attempt _ ih =>
    obtain ⟨element, found, foreign⟩ := isForeignElement_iff.mp foreign
    have ends := ih (latest.of_foreign found foreign attempt)
    exact ends
  | implicit implicit attempt _ ih =>
    obtain ⟨element, found, implicit⟩ := isImplicit_iff.mp implicit
    obtain ⟨later, ends, same⟩ := ih (latest.of_implicit found implicit attempt).2
    refine ⟨later, ?_, same⟩
    rw [List.length_cons, ← Increment.nth_applyInt]
    exact ends

/-- Each implicit element of a sequence has its term as a literal that is new. -/
theorem hasValue (sequence : Sequence enumId store ids final)
    (latest : store.LatestInt enumId decl value span) {count : Nat} (member : ids[count]? = some id) :
    ∃ node : NodeId, store.size ≤ node.index ∧
      final.HasValue id node (decl.increment.nth value (count + 1)) span := by
  induction sequence generalizing decl value count with
  | nil => simp at member
  | refused attempt _ ih =>
    cases (register_eq_error_iff.mp attempt).2
    exact ih latest member
  | foreign foreign attempt _ ih =>
    obtain ⟨element, found, foreign⟩ := isForeignElement_iff.mp foreign
    obtain ⟨node, isNew, has⟩ := ih (latest.of_foreign found foreign attempt) member
    exact ⟨node, Nat.le_trans (size_le_of_attempt attempt) isNew, has⟩
  | implicit implicit attempt rest ih =>
    obtain ⟨element, found, implicit⟩ := isImplicit_iff.mp implicit
    obtain ⟨has, next⟩ := latest.of_implicit found implicit attempt
    cases count with
    | zero =>
      cases member
      have stays := has.of_sequence (.of_registered attempt) rest
      rw [← Increment.nth_applyInt, Increment.nth_zero]
      exact ⟨_, Nat.le_refl _, stays⟩
    | succ count =>
      obtain ⟨node, isNew, has⟩ := ih next member
      rw [← Increment.nth_applyInt]
      exact ⟨node, Nat.le_trans (size_le_of_attempt attempt) isNew, has⟩

end Sequence

/-- A plain enumeration as it is allocated, apart from its rule and its type. -/
structure IsNew (store : Store) (enumId : NodeId) (decl : Enumeration) : Prop where
  declared : store.enum? enumId = some decl
  plain : decl.header.isForeign = false
  empty : decl.members = .empty
  zero : store.literal? decl.lastValue = some (.int 0)

namespace IsNew

theorem allocEnum (store : Store) {header : Header} (plain : header.isForeign = false)
    (span : Span) :
    ∃ decl, (store.allocEnum header span).2.IsNew (store.allocEnum header span).1 decl ∧
      decl.header = header ∧ decl.increment = .standard := by
  refine ⟨{ header := header, lastValue := ⟨store.size⟩ }, ⟨?_, plain, rfl, ?_⟩, rfl, rfl⟩
  · rw [enum?_eq_some_iff, Store.allocEnum, content?_alloc]
    exact if_pos rfl
  · rw [literal?_eq_some_iff, Store.allocEnum, content?_alloc, if_neg, content?_alloc]
    · exact if_pos rfl
    · simp

/-- An implicit element that comes first is given zero itself. -/
theorem admits (isNew : store.IsNew enumId decl) (found : store.element? id = some element)
    (implicit : element.isImplicit = true) :
    store.Admits enumId id decl element (.computed (.int 0)) := by
  obtain ⟨plain, notGiven⟩ := Element.isImplicit_iff.mp implicit
  refine ⟨isNew.declared, found, ?_, ?_⟩
  · rw [isNew.empty]
    rfl
  · rw [originOf_implicit isNew.plain plain notGiven, nextLiteral, isNew.zero, isNew.empty]
    rfl

theorem awaits (isNew : store.IsNew enumId decl)
    (present : ∀ id ∈ ids, (store.element? id).isSome = true)
    (distinct : (ids.map store.elementName?).Nodup) : store.Awaits decl ids where
  unused id member := by
    obtain ⟨element, found⟩ := Option.isSome_iff_exists.mp (present id member)
    refine ⟨element, found, ?_⟩
    rw [isNew.empty]
    rfl
  distinct := distinct

theorem latestInt (isNew : store.IsNew enumId decl)
    (admits : store.Admits enumId id decl element (.computed (.int 0))) :
    (store.entered enumId id decl element (.computed (.int 0))).LatestInt enumId
      (decl.enter element.header.name id (some ⟨store.size⟩)) 0 (store.span decl.lastValue) :=
  .of_admits admits isNew.plain ⟨0, admits.get?_fresh, rfl⟩

/-- The elements that follow an implicit first one have the terms from zero on. -/
theorem hasValue (isNew : store.IsNew enumId decl)
    (admits : store.Admits enumId id decl element (.computed (.int 0)))
    (sequence : Sequence enumId (store.entered enumId id decl element (.computed (.int 0))) ids final)
    {count : Nat} {member : NodeId} (counted : (id :: ids)[count]? = some member) :
    ∃ node : NodeId, store.size ≤ node.index ∧
      final.HasValue member node (decl.increment.nth 0 count) (store.span decl.lastValue) := by
  have registered := admits.registers
  cases count with
  | zero =>
    cases counted
    have has : (store.entered enumId id decl element (.computed (.int 0))).HasValue id ⟨store.size⟩
        0 (store.span decl.lastValue) :=
      ⟨⟨_, admits.element?_self, rfl⟩, ⟨0, admits.get?_fresh, rfl⟩⟩
    rw [Increment.nth_zero]
    exact ⟨_, Nat.le_refl _, has.of_sequence (.of_registered registered) sequence⟩
  | succ count =>
    obtain ⟨node, isNode, has⟩ := sequence.hasValue (isNew.latestInt admits) counted
    exact ⟨node, Nat.le_trans (size_le_of_attempt registered) isNode, has⟩

end IsNew

/-- Implicit elements under new and different names are all registered if their terms fit. -/
theorem LatestInt.forM_register (latest : store.LatestInt enumId decl value span)
    (awaits : store.Awaits decl ids)
    (implicit : ∀ id ∈ ids, store.isImplicit id = true)
    (fits : ∀ count < ids.length, fitsInt64 (decl.increment.nth value (count + 1)) = true) :
    ∃ final, (forM ids (register enumId)).apply store = (.ok (), final) ∧
      Sequence enumId store ids final := by
  induction ids generalizing store decl value with
  | nil => exact ⟨store, rfl, .nil store⟩
  | cons id ids ih =>
    obtain ⟨element, found, unused⟩ := awaits.unused id List.mem_cons_self
    have isImplicit := implicit id List.mem_cons_self
    rw [Store.isImplicit, found, Option.any_some] at isImplicit
    have fit := fits 0 (Nat.succ_pos _)
    rw [← Increment.nth_applyInt, Increment.nth_zero] at fit
    obtain ⟨next, admits⟩ := latest.admits_of_fits found isImplicit unused fit
    have registered := admits.registers
    have later := (latest.of_implicit found isImplicit registered).2
    have stillImplicit : ∀ other ∈ ids,
        (store.entered enumId id decl element (.computed next)).isImplicit other = true := by
      intro other member
      rw [awaits.isImplicit_eq admits member]
      exact implicit other (List.mem_cons_of_mem _ member)
    have stillFits : ∀ count < ids.length,
        fitsInt64 (decl.increment.nth (decl.increment.applyInt value) (count + 1)) = true := by
      intro count below
      rw [Increment.nth_applyInt]
      exact fits (count + 1) (Nat.succ_lt_succ below)
    obtain ⟨final, applied, sequence⟩ := ih later (awaits.tail admits _) stillImplicit stillFits
    refine ⟨final, ?_, .implicit (implicit id List.mem_cons_self) registered sequence⟩
    rw [List.forM_cons, Edit.apply_bind, registered]
    exact applied

/-- A plain enumeration whose latest value is an integer, held by one of its members. -/
structure HeldInt (store : Store) (enumId : NodeId) (decl : Enumeration) (start : Int64) : Prop where
  declared : store.enum? enumId = some decl
  plain : decl.header.isForeign = false
  latest : store.literal? decl.lastValue = some (.int start)
  held : ∃ member ∈ decl.members.ids, ∃ element,
    store.element? member = some element ∧ element.value = some decl.lastValue

theorem HeldInt.latestInt {start : Int64} (held : store.HeldInt enumId decl start) :
    store.LatestInt enumId decl start.toInt (store.span decl.lastValue) where
  declared := held.declared
  plain := held.plain
  begun := by
    obtain ⟨member, isMember, -⟩ := held.held
    rw [Members.isEmpty_eq]
    cases entries : decl.members.toList with
    | nil => simp [Members.ids, entries] at isMember
    | cons _ _ => rfl
  latest := ⟨start, get?_of_content? (literal?_eq_some_iff.mp held.latest), rfl⟩

/-- What a sequence of registrations leads to when the latest value before it is an integer. -/
structure CountsOn (store : Store) (enumId : NodeId) (decl : Enumeration) (start : Int)
    (ids : List NodeId) (final : Store) : Prop where
  /-- Each implicit element has its term as a new literal, at the place of the value before. -/
  values : ∀ (count : Nat) (id : NodeId), ids[count]? = some id → ∃ node : NodeId,
    store.size ≤ node.index ∧
      final.HasValue id node (decl.increment.nth start (count + 1)) (store.span decl.lastValue)
  /-- One more implicit element under a new name overflows exactly if its term does not fit. -/
  overflow_iff : ∀ id element later, final.enum? enumId = some later →
    final.element? id = some element → element.isImplicit = true →
    later.members.contains element.header.name = false →
    (((register enumId id).apply final).1 =
        .error (.overflow id (final.underlyingName later)) ↔
      ¬ (-2 ^ 63 ≤ decl.increment.nth start (ids.length + 1) ∧
        decl.increment.nth start (ids.length + 1) ≤ 2 ^ 63 - 1))
  /-- Otherwise it is registered. -/
  ok_iff : ∀ id element later, final.enum? enumId = some later →
    final.element? id = some element → element.isImplicit = true →
    later.members.contains element.header.name = false →
    (((register enumId id).apply final).1 = .ok () ↔
      -2 ^ 63 ≤ decl.increment.nth start (ids.length + 1) ∧
        decl.increment.nth start (ids.length + 1) ≤ 2 ^ 63 - 1)

/-- What registrations with a new enumeration lead to. -/
structure CountsFromZero (store : Store) (enumId : NodeId) (decl : Enumeration) : Prop where
  /-- An implicit element that comes first has zero, and those after it have the next terms. -/
  values : ∀ first element, store.element? first = some element → element.isImplicit = true →
    ∃ left, (register enumId first).apply store = (.ok (), left) ∧
      ∀ ids final, Sequence enumId left ids final →
        ∀ (count : Nat) (id : NodeId), (first :: ids)[count]? = some id → ∃ node : NodeId,
          store.size ≤ node.index ∧
            final.HasValue id node (decl.increment.nth 0 count) (store.span decl.lastValue)
  /-- Implicit elements of different names are numbered from zero by the standard rule. -/
  standard : decl.increment = .standard → ∀ ids : List NodeId,
    (∀ id ∈ ids, store.isImplicit id = true) →
    (ids.map store.elementName?).Nodup → ids.length ≤ 2 ^ 63 →
    ∃ final, (forM ids (register enumId)).apply store = (.ok (), final) ∧
      ∀ (count : Nat) (id : NodeId), ids[count]? = some id → ∃ node : NodeId,
        store.size ≤ node.index ∧ final.HasValue id node count (store.span decl.lastValue)

theorem LatestInt.register_iff (latest : store.LatestInt enumId decl value span)
    (found : store.element? id = some element) (implicit : element.isImplicit = true)
    (unused : decl.members.contains element.header.name = false) :
    (((register enumId id).apply store).1 = .error (.overflow id (store.underlyingName decl)) ↔
      ¬ fitsInt64 (decl.increment.applyInt value) = true) ∧
    (((register enumId id).apply store).1 = .ok () ↔
      fitsInt64 (decl.increment.applyInt value) = true) := by
  cases fits : fitsInt64 (decl.increment.applyInt value) with
  | true =>
    obtain ⟨next, admits⟩ := latest.admits_of_fits found implicit unused fits
    rw [admits.registers]
    simp
  | false =>
    rw [latest.register_of_not_fits found implicit unused fits]
    simp

theorem Sequence.countsOn (sequence : Sequence enumId store ids final)
    (latest : store.LatestInt enumId decl value (store.span decl.lastValue)) :
    store.CountsOn enumId decl value ids final := by
  obtain ⟨last, ends, sameRule⟩ := sequence.latestInt latest
  have next : last.increment.applyInt (decl.increment.nth value ids.length) =
      decl.increment.nth value (ids.length + 1) := by
    rw [sameRule, Increment.applyInt_nth]
  refine ⟨fun count id member => sequence.hasValue latest member, ?_, ?_⟩
  · intro id element later declared found implicit unused
    cases Option.some.inj (ends.declared.symm.trans declared)
    rw [(ends.register_iff found implicit unused).1, next, fitsInt64_iff]
  · intro id element later declared found implicit unused
    cases Option.some.inj (ends.declared.symm.trans declared)
    rw [(ends.register_iff found implicit unused).2, next, fitsInt64_iff]

theorem IsNew.countsFromZero (isNew : store.IsNew enumId decl) :
    store.CountsFromZero enumId decl where
  values first element found implicit := by
    have admits := isNew.admits found implicit
    refine ⟨_, admits.registers, ?_⟩
    intro ids final sequence count id counted
    exact isNew.hasValue admits sequence counted
  standard rule ids implicit distinct bound := by
    cases ids with
    | nil => exact ⟨store, rfl, by simp⟩
    | cons first rest =>
      obtain ⟨element, found, isImplicit⟩ :=
        isImplicit_iff.mp (implicit first List.mem_cons_self)
      have admits := isNew.admits found isImplicit
      have awaits := isNew.awaits
        (fun id member => Option.isSome_of_any (implicit id member)) distinct
      have stillImplicit : ∀ other ∈ rest,
          (store.entered enumId first decl element (.computed (.int 0))).isImplicit other =
            true := by
        intro other member
        rw [awaits.isImplicit_eq admits member]
        exact implicit other (List.mem_cons_of_mem _ member)
      have fits : ∀ count < rest.length, fitsInt64 (decl.increment.nth 0 (count + 1)) = true := by
        intro count below
        rw [List.length_cons] at bound
        rw [rule, Increment.nth_standard, fitsInt64_iff]
        omega
      obtain ⟨final, applied, sequence⟩ := (isNew.latestInt admits).forM_register
        (awaits.tail admits _) stillImplicit fits
      refine ⟨final, ?_, ?_⟩
      · rw [List.forM_cons, Edit.apply_bind, admits.registers]
        exact applied
      · intro count id counted
        have has := isNew.hasValue admits sequence counted
        rw [rule, Increment.nth_standard, Int.zero_add] at has
        exact has

/-- Computed integers are the exact progression. -/
theorem implicit_values_exact :
    (∀ (start : Int64) (ids : List NodeId) (final : Store), store.HeldInt enumId decl start →
      Sequence enumId store ids final → store.CountsOn enumId decl start.toInt ids final) ∧
    (store.IsNew enumId decl → store.CountsFromZero enumId decl) :=
  ⟨fun _ _ _ held sequence => sequence.countsOn held.latestInt, IsNew.countsFromZero⟩

/-- A doubling enumeration with one member. -/
def flags : Enumeration :=
  { header := { name := ⟨1⟩ }
    members := Members.empty.enter ⟨2⟩ ⟨1⟩
    lastValue := ⟨0⟩
    increment := ⟨.mul, 2⟩ }

/-- The enumeration, whose member is `1`, with a foreign element, two implicit ones, and one that
has the name of the member. -/
def doubling : Store :=
  ⟨#[⟨.literal (.int 1), ⟨30, 31⟩⟩,
    ⟨.element
      { header := { name := ⟨2⟩ }
        value := some ⟨0⟩
        valueSet := true
        type := some .nominal }, ⟨23, 31⟩⟩,
    ⟨.enum flags, ⟨0, 60⟩⟩,
    ⟨.element { header := .foreign ⟨3⟩ none }, ⟨33, 38⟩⟩,
    ⟨.element { header := { name := ⟨4⟩ } }, ⟨40, 45⟩⟩,
    ⟨.element { header := { name := ⟨2⟩ } }, ⟨47, 51⟩⟩,
    ⟨.element { header := { name := ⟨5⟩ } }, ⟨53, 57⟩⟩]⟩

theorem implicit_values_exact_doubling :
    (∃ final, doubling.HeldInt ⟨2⟩ flags 1 ∧ Sequence ⟨2⟩ doubling [⟨4⟩, ⟨6⟩] final ∧
      doubling.CountsOn ⟨2⟩ flags 1 [⟨4⟩, ⟨6⟩] final ∧
      ∃ node, final.HasValue ⟨6⟩ node 4 ⟨30, 31⟩) ∧
    ∃ decl, (Store.empty.allocEnum { name := ⟨1⟩ } ⟨0, 9⟩).2.IsNew ⟨1⟩ decl ∧
      (Store.empty.allocEnum { name := ⟨1⟩ } ⟨0, 9⟩).2.CountsFromZero ⟨1⟩ decl := by
  constructor
  · have held : doubling.HeldInt ⟨2⟩ flags 1 := ⟨rfl, rfl, rfl, ⟨1⟩, by decide, _, rfl, rfl⟩
    have first : (register ⟨2⟩ ⟨4⟩).apply doubling =
        (.ok (), (doubling.registerEach ⟨2⟩ [⟨4⟩]).2) := Prod.ext (by decide) rfl
    have second : (register ⟨2⟩ ⟨3⟩).apply (doubling.registerEach ⟨2⟩ [⟨4⟩]).2 =
        (.ok (), (doubling.registerEach ⟨2⟩ [⟨4⟩, ⟨3⟩]).2) := Prod.ext (by decide) rfl
    have third : (register ⟨2⟩ ⟨5⟩).apply (doubling.registerEach ⟨2⟩ [⟨4⟩, ⟨3⟩]).2 =
        (.error (.duplicate ⟨5⟩ ⟨1⟩), (doubling.registerEach ⟨2⟩ [⟨4⟩, ⟨3⟩, ⟨5⟩]).2) :=
      Prod.ext (by decide) rfl
    have fourth : (register ⟨2⟩ ⟨6⟩).apply (doubling.registerEach ⟨2⟩ [⟨4⟩, ⟨3⟩, ⟨5⟩]).2 =
        (.ok (), (doubling.registerEach ⟨2⟩ [⟨4⟩, ⟨3⟩, ⟨5⟩, ⟨6⟩]).2) := Prod.ext (by decide) rfl
    have sequence := Sequence.implicit (by decide) first <| .foreign (by decide) second <|
      .refused third <| .implicit (by decide) fourth (.nil _)
    have counts := implicit_values_exact.1 1 _ _ held sequence
    obtain ⟨node, -, has⟩ := counts.values 1 ⟨6⟩ rfl
    exact ⟨_, held, sequence, counts, node, has⟩
  · have plain : ({ name := ⟨1⟩ } : Header).isForeign = false := rfl
    obtain ⟨decl, isNew, -⟩ := IsNew.allocEnum Store.empty plain ⟨0, 9⟩
    exact ⟨decl, isNew, implicit_values_exact.2 isNew⟩

end Store

end Declarations
