import Declarations.Proofs.Registration
import Declarations.Proofs.Reports

/-!
# Refused registrations

The reasons for which a registration is refused are facts about the store as it is found: what the
two numbers stand for, which names the enumeration has, and, where a value has to be computed, the
latest value and the rule. A refused registration changes nothing and adds at most one error to the
log; one that succeeds leaves the log alone.
-/

namespace Declarations

namespace Log

/-- A reported error is put at the end of the log, or the log stays as it is. -/
theorem emitError_cases (log : Log) (diagnostic : Diagnostic) :
    (log.emitError diagnostic).2 = log ∨
      (log.emitError diagnostic).2.diagnostics = log.diagnostics ++ [diagnostic] := by
  rw [emitError, add]
  split
  · exact .inl rfl
  · exact .inr (by simp [push])

end Log

namespace Store

variable {store : Store} {enumId elementId : NodeId} {decl : Enumeration} {element : Element}
  {error : RegistrationError}

/-- The element is new to the enumeration, neither is foreign, and the author gave no value. -/
structure LacksValue (store : Store) (enumId elementId : NodeId) (decl : Enumeration)
    (element : Element) : Prop where
  declared : store.enum? enumId = some decl
  found : store.element? elementId = some element
  unused : element.header.name ∉ decl.members.names
  plainEnum : decl.header.isForeign = false
  plainElement : element.header.isForeign = false
  implicit : element.explicitValue? = none

/-- The reasons for which a registration is refused. -/
inductive Refuses (store : Store) (enumId elementId : NodeId) : RegistrationError → Prop
  | notAnEnum (missing : store.enum? enumId = none) :
    Refuses store enumId elementId (.notAnEnum enumId)
  | notAnElement {decl : Enumeration} (declared : store.enum? enumId = some decl)
      (missing : store.element? elementId = none) :
    Refuses store enumId elementId (.notAnElement elementId)
  | duplicate {decl : Enumeration} {element : Element} {existing : NodeId}
      (declared : store.enum? enumId = some decl) (found : store.element? elementId = some element)
      (used : (element.header.name, existing) ∈ decl.members.toList) :
    Refuses store enumId elementId (.duplicate elementId existing)
  | notALiteral {decl : Enumeration} {element : Element}
      (lacks : store.LacksValue enumId elementId decl element)
      (latest : store.literal? decl.lastValue = none) :
    Refuses store enumId elementId
      (.impossibleIncrement elementId none (store.underlyingName decl))
  | noRule {decl : Enumeration} {element : Element} {previous : Literal} {kind : LiteralKind}
      (lacks : store.LacksValue enumId elementId decl element)
      (later : decl.members.toList ≠ [])
      (latest : store.literal? decl.lastValue = some previous)
      (unsupported : previous.increment decl.increment = .error (.unsupported kind)) :
    Refuses store enumId elementId
      (.impossibleIncrement elementId (some kind) (store.underlyingName decl))
  | overflow {decl : Enumeration} {element : Element} {previous : Literal}
      (lacks : store.LacksValue enumId elementId decl element)
      (later : decl.members.toList ≠ [])
      (latest : store.literal? decl.lastValue = some previous)
      (overflows : previous.increment decl.increment = .error .overflow) :
    Refuses store enumId elementId (.overflow elementId (store.underlyingName decl))

theorem LacksValue.check_eq (lacks : store.LacksValue enumId elementId decl element)
    (consistent : decl.members.Consistent)
    (refused : store.nextLiteral decl elementId = .error error) :
    store.check enumId elementId = .error error := by
  have unused := consistent.get?_eq_none_iff.mpr lacks.unused
  rw [check_of_unused lacks.declared lacks.found unused,
    originOf_implicit lacks.plainEnum lacks.plainElement lacks.implicit, refused]
  rfl

theorem LacksValue.of_originOf_error (declared : store.enum? enumId = some decl)
    (found : store.element? elementId = some element)
    (unused : element.header.name ∉ decl.members.names)
    (refused : store.originOf decl elementId element = .error error) :
    store.LacksValue enumId elementId decl element ∧
      store.nextLiteral decl elementId = .error error := by
  rw [originOf] at refused
  split at refused
  · cases refused
  · next plain =>
    rw [Bool.not_eq_true, Bool.or_eq_false_iff] at plain
    split at refused
    · cases refused
    · next implicit =>
      refine ⟨⟨declared, found, unused, plain.1, plain.2, implicit⟩, ?_⟩
      cases follows : store.nextLiteral decl elementId with
      | ok next =>
        rw [follows] at refused
        cases refused
      | error reason =>
        rw [follows] at refused
        cases refused
        rfl

theorem LacksValue.refuses (lacks : store.LacksValue enumId elementId decl element)
    (refused : store.nextLiteral decl elementId = .error error) :
    store.Refuses enumId elementId error := by
  rw [nextLiteral, Members.isEmpty_eq] at refused
  split at refused
  · next latest =>
    cases refused
    exact .notALiteral lacks latest
  · next previous latest =>
    split at refused
    · cases refused
    · next later =>
      rw [List.isEmpty_iff] at later
      split at refused
      · cases refused
      · next kind unsupported =>
        cases refused
        exact .noRule lacks later latest unsupported
      · next overflows =>
        cases refused
        exact .overflow lacks later latest overflows

theorem check_eq_error_iff
    (consistent : ∀ decl, store.enum? enumId = some decl → decl.members.Consistent) :
    store.check enumId elementId = .error error ↔ store.Refuses enumId elementId error := by
  constructor
  · intro refused
    rw [check] at refused
    split at refused
    · next missing =>
      cases refused
      exact .notAnEnum missing
    · next decl declared missing =>
      cases refused
      exact .notAnElement declared missing
    · next decl element declared found =>
      have consistent := consistent decl declared
      split at refused
      · next existing used =>
        cases refused
        exact .duplicate declared found (consistent.get?_eq_some_iff.mp used)
      · next unused =>
        cases originates : store.originOf decl elementId element with
        | ok origin =>
          rw [originates] at refused
          cases refused
        | error reason =>
          rw [originates] at refused
          cases refused
          obtain ⟨lacks, follows⟩ := LacksValue.of_originOf_error declared found
            (consistent.get?_eq_none_iff.mp unused) originates
          exact lacks.refuses follows
  · intro refuses
    cases refuses with
    | notAnEnum missing => rw [check, missing]
    | notAnElement declared missing => rw [check, declared, missing]
    | duplicate declared found used =>
      rw [check, declared, found]
      dsimp only
      rw [(consistent _ declared).get?_eq_some_iff.mpr used]
    | notALiteral lacks latest =>
      apply lacks.check_eq (consistent _ lacks.declared)
      rw [nextLiteral, latest]
    | noRule lacks later latest unsupported =>
      apply lacks.check_eq (consistent _ lacks.declared)
      simp [nextLiteral, latest, Members.isEmpty_eq, later, unsupported]
    | overflow lacks later latest overflows =>
      apply lacks.check_eq (consistent _ lacks.declared)
      simp [nextLiteral, latest, Members.isEmpty_eq, later, overflows]

/-- An element under a new name can only be refused for the value that it lacks. -/
theorem Refuses.value_at_fault (refuses : store.Refuses enumId elementId error)
    (declared : store.enum? enumId = some decl) (found : store.element? elementId = some element)
    (unused : element.header.name ∉ decl.members.names) :
    (∃ kind, error = .impossibleIncrement elementId kind (store.underlyingName decl)) ∨
      error = .overflow elementId (store.underlyingName decl) := by
  cases refuses with
  | notAnEnum missing =>
    rw [declared] at missing
    cases missing
  | notAnElement _ missing =>
    rw [found] at missing
    cases missing
  | duplicate sameEnum sameElement used =>
    cases Option.some.inj (sameEnum.symm.trans declared)
    cases Option.some.inj (sameElement.symm.trans found)
    exact absurd (Members.mem_names_iff.mpr ⟨_, used⟩) unused
  | notALiteral lacks _ =>
    cases Option.some.inj (lacks.declared.symm.trans declared)
    exact .inl ⟨none, rfl⟩
  | noRule lacks _ _ _ =>
    cases Option.some.inj (lacks.declared.symm.trans declared)
    exact .inl ⟨some _, rfl⟩
  | overflow lacks _ _ _ =>
    cases Option.some.inj (lacks.declared.symm.trans declared)
    exact .inr rfl

theorem isError_registrationReport (store : Store) (names : NameTable) (enumId : NodeId)
    (error : RegistrationError) : (store.registrationReport names enumId error).isError = true := by
  cases error <;> rfl

theorem addElement_of_error {final : Store} (names : NameTable) (log : Log)
    (refused : (register enumId elementId).apply store = (.error error, final)) :
    store.addElement names log enumId elementId =
      (.error {}, store, (log.emitError (store.registrationReport names enumId error)).2) := by
  rw [addElement, refused, (register_eq_error_iff.mp refused).2]

theorem addElement_of_ok {final : Store} (names : NameTable) (log : Log)
    (registered : (register enumId elementId).apply store = (.ok (), final)) :
    store.addElement names log enumId elementId = (.ok (), final, log) := by
  rw [addElement, registered]

theorem register_eq_error {outcome : RegistrationError}
    (refused : ((register enumId elementId).apply store).1 = .error outcome) :
    (register enumId elementId).apply store = (.error outcome, store) := by
  cases applied : (register enumId elementId).apply store with
  | mk result final =>
    rw [applied] at refused
    subst refused
    rw [(register_eq_error_iff.mp applied).2]

/-- What a registration does when it is refused. -/
structure RefusesAtomically (store : Store) (names : NameTable) (log : Log)
    (enumId elementId : NodeId) : Prop where
  /-- The store stays as it was. -/
  unchanged : ∀ error final, (register enumId elementId).apply store = (.error error, final) →
    final = store
  /-- The refusals are those for which the store gives a reason before anything is changed. -/
  refused_iff : (∀ decl, store.enum? enumId = some decl → decl.members.Consistent) →
    ∀ error, ((register enumId elementId).apply store).1 = .error error ↔
      store.Refuses enumId elementId error
  /-- Once both nodes are found and the name is new, only the value can be at fault. -/
  late : ∀ decl element, store.enum? enumId = some decl →
    store.element? elementId = some element → decl.members.Consistent →
    element.header.name ∉ decl.members.names →
    ∀ error, ((register enumId elementId).apply store).1 = .error error →
      (∃ kind, error = .impossibleIncrement elementId kind (store.underlyingName decl)) ∨
        error = .overflow elementId (store.underlyingName decl)
  /-- A token is the answer to a refusal and to nothing else. -/
  answered_iff : (∃ token, (store.addElement names log enumId elementId).1 = .error token) ↔
    ∃ error, ((register enumId elementId).apply store).1 = .error error
  /-- A refusal adds its report to the log, or nothing. -/
  reported : ∀ error, ((register enumId elementId).apply store).1 = .error error →
    (store.registrationReport names enumId error).isError = true ∧
    ∃ later, store.addElement names log enumId elementId = (.error {}, store, later) ∧
      (later = log ∨
        later.diagnostics = log.diagnostics ++ [store.registrationReport names enumId error])
  /-- A success leaves the log alone. -/
  silent : ∀ final, (register enumId elementId).apply store = (.ok (), final) →
    store.addElement names log enumId elementId = (.ok (), final, log)

/-- A registration is refused before it changes anything, whatever the two numbers stand for. -/
theorem register_atomic (store : Store) (names : NameTable) (log : Log)
    (enumId elementId : NodeId) : store.RefusesAtomically names log enumId elementId where
  unchanged error final refused := (register_eq_error_iff.mp refused).2
  refused_iff consistent error := by
    rw [← check_eq_error_iff consistent]
    constructor
    · intro refused
      exact (register_eq_error_iff.mp (register_eq_error refused)).1
    · intro refused
      rw [register_eq_error_iff.mpr ⟨refused, rfl⟩]
  late decl element declared found consistent unused error refused := by
    have reason := (register_eq_error_iff.mp (register_eq_error refused)).1
    have consistentHere : ∀ other, store.enum? enumId = some other → other.members.Consistent := by
      intro other same
      cases Option.some.inj (same.symm.trans declared)
      exact consistent
    exact ((check_eq_error_iff consistentHere).mp reason).value_at_fault declared found unused
  answered_iff := by
    cases applied : (register enumId elementId).apply store with
    | mk outcome final =>
      cases outcome with
      | ok =>
        rw [addElement_of_ok names log applied]
        simp
      | error error =>
        rw [addElement_of_error names log applied]
        exact ⟨fun _ => ⟨error, rfl⟩, fun _ => ⟨{}, rfl⟩⟩
  reported error refused := by
    refine ⟨isError_registrationReport store names enumId error, _,
      addElement_of_error names log (register_eq_error refused), ?_⟩
    exact log.emitError_cases _
  silent final registered := addElement_of_ok names log registered

/-- An enumeration whose only member has the greatest value, and an element without a value. -/
def brimming : Store :=
  ⟨#[⟨.literal (.int Int64.maxValue), ⟨16, 35⟩⟩,
    ⟨.element
      { header := { name := ⟨2⟩ }
        value := some ⟨0⟩
        valueSet := true
        type := some .nominal }, ⟨10, 35⟩⟩,
    ⟨.enum
      { header := { name := ⟨1⟩ }
        members := Members.empty.enter ⟨2⟩ ⟨1⟩
        lastValue := ⟨0⟩ }, ⟨0, 45⟩⟩,
    ⟨.element { header := { name := ⟨3⟩ } }, ⟨37, 41⟩⟩]⟩

theorem register_atomic_brimming :
    (∀ decl, brimming.enum? ⟨2⟩ = some decl → decl.members.Consistent) ∧
    brimming.Refuses ⟨2⟩ ⟨3⟩ (.overflow ⟨3⟩ ⟨1⟩) ∧
    ((register ⟨2⟩ ⟨3⟩).apply brimming).1 = .error (.overflow ⟨3⟩ ⟨1⟩) ∧
    ((register ⟨2⟩ ⟨3⟩).apply brimming).2 = brimming := by
  have consistent : ∀ decl, brimming.enum? ⟨2⟩ = some decl → decl.members.Consistent := by
    intro decl declared
    cases declared
    exact Members.consistent_empty.enter rfl ⟨1⟩
  have refused : ((register ⟨2⟩ ⟨3⟩).apply brimming).1 = .error (.overflow ⟨3⟩ ⟨1⟩) := by
    decide
  have atomic := register_atomic brimming (.ofTexts ["Big", "Max", "Past"]) {} ⟨2⟩ ⟨3⟩
  exact ⟨consistent, (atomic.refused_iff consistent _).mp refused, refused,
    atomic.unchanged _ _ (Prod.ext refused rfl)⟩

end Store

end Declarations
