import Declarations.Proofs.Locality

/-!
# What the answer of a walk says

The answer to the request to settle a node can be read off the node afterwards: a declaration is
done when it is resolved, a reference when it is bound or given up, and a literal always. A module
bears no mark; when it is done, so is everything that it lists. A node that stays open is left as it
was, whatever was settled below it.
-/

namespace Declarations

/-- A node counts as done. A module lists only nodes that do, as far as they exist. -/
inductive Store.Done (store : Store) : NodeId → Prop
  | declaration {id : NodeId} (resolved : store.isResolved id = true) : Done store id
  | typeRef {id : NodeId} {reference : TypeReference} (found : store.typeRef? id = some reference)
      (settled : reference.target.isSome = true ∨ reference.failed = true) : Done store id
  | nameRef {id : NodeId} {reference : NameReference} (found : store.nameRef? id = some reference)
      (settled : reference.target.isSome = true ∨ reference.failed = true) : Done store id
  | literal {id : NodeId} {value : Literal} (found : store.literal? id = some value) : Done store id
  | module {id : NodeId} {scope : Module} (found : store.module? id = some scope)
      (listed : ∀ decl ∈ scope.declarations, store.Present decl → Done store decl) : Done store id

namespace Store

variable {store : Store} {lost : Prop} {id : NodeId}

/-- An existing node at which nothing is left to do counts as done. -/
theorem Settled.done (settled : store.Settled lost id) (present : store.Present id) :
    store.Done id := by
  induction settled with
  | missing found =>
    rw [Present, found] at present
    cases present
  | @marked id content found isMarked =>
    cases content with
    | typeRef reference =>
      exact .typeRef (typeRef?_eq_some_iff.mpr found) ((Bool.or_eq_true _ _).mp isMarked)
    | nameRef reference =>
      exact .nameRef (nameRef?_eq_some_iff.mpr found) ((Bool.or_eq_true _ _).mp isMarked)
    | cover | enum | element | «variable» =>
      exact .declaration (isResolved_iff.mpr ⟨_, found, isMarked⟩)
    | module | literal => cases isMarked
  | @holder id content found unmarkable _ ih =>
    cases content with
    | module scope =>
      exact .module (module?_eq_some_iff.mpr found) fun decl listed =>
        ih decl (Content.mem_children_module.mpr listed)
    | literal value => exact .literal (literal?_eq_some_iff.mpr found)
    | cover | enum | element | «variable» | typeRef | nameRef => cases unmarkable

end Store

namespace Resolution

variable {levels : Nat} {path : Path} {id : NodeId} {start final : Resolution}
  {progress : Progress}

/-- The walks below a node leave the node alone. -/
theorem VisitsStages.content?_eq (acyclic : start.store.Acyclic) {content : Content}
    (found : start.store.content? id = some content)
    (visited : VisitsStages (Walks levels path) content.stages start progress final) :
    final.store.content? id = start.store.content? id := by
  -- a walk stays below its child, and the node is not below its own child
  have apart : ∀ child ∈ content.stages.flatten,
      ¬ Relation.ReflTransGen start.store.Holds child id := by
    intro child held back
    have down : start.store.Holds id child := Store.holds_iff.mpr ⟨content, found, held⟩
    exact acyclic id (Relation.TransGen.head' down back)
  have bounded := visited.between Advances .refl .trans fun _ _ _ _ _ walked => walked.advances
  refine bounded.relates (fun before after => after.store.content? id = before.store.content? id)
    (fun _ => rfl) (fun first second => second.trans first) ?_
  intro child held before own after ⟨walked, since, _⟩
  apply walked.staysWithin.content
  change ¬ Relation.ReflTransGen before.store.Holds child id
  rw [since.store.holds_eq]
  exact apart child held

/-- A walk that leaves its node open leaves it as it was: it has no mark, and it is no literal. -/
theorem Walks.of_pending (acyclic : start.store.Acyclic)
    (walked : Walks levels path id start .pending final) :
    ∃ content, start.store.content? id = some content ∧ final.store.content? id = some content ∧
      content.isMarked = false ∧ content.kind ≠ .literal := by
  generalize isPending : Progress.pending = progress at walked
  induction walked using Walks.induction with
  | missing | marked | bind | reject | finish => cases isPending
  | @wait levels path id start content reason found isReference isOpen judged =>
    refine ⟨content, found, found, isOpen, fun isLiteral => ?_⟩
    rw [Content.isReference, isLiteral] at isReference
    cases isReference
  | @stop levels path id start final content found notReference isOpen visits =>
    refine ⟨content, found, (visits.content?_eq acyclic found).trans found, isOpen, ?_⟩
    intro isLiteral
    cases content with
    | literal value => cases visits
    | _ => cases isLiteral

/-- The answer about a node that can be marked is read off its mark. -/
theorem Walks.done_iff_isMarked (acyclic : start.store.Acyclic)
    (walked : Walks levels path id start progress final) {later : Content}
    (found : final.store.content? id = some later) (markable : later.isMarkable = true) :
    progress = .done ↔ later.isMarked = true := by
  cases progress with
  | done => exact iff_of_true rfl ((walked.settled rfl).isMarked found markable)
  | pending =>
    obtain ⟨content, -, foundAgain, isOpen, -⟩ := walked.of_pending acyclic
    rw [found] at foundAgain
    cases foundAgain
    rw [isOpen]
    exact iff_of_false (by decide) Bool.false_ne_true

variable {resolution : Resolution}

/-- The answer to the request to settle a node says what the node is like afterwards. A declaration
is done exactly if it is resolved, a reference exactly if it is bound or given up, and a literal
always; when a module is done, all existing nodes that it lists are. A node that is not done is what
it was before. -/
theorem resolve_mirrors (acyclic : resolution.store.Acyclic) (path : Path) (id : NodeId)
    {progress : Progress} {final : Resolution}
    (answered : resolution.resolve path id = (progress, final)) :
    final.store.kind? id = resolution.store.kind? id ∧
    (∀ kind, final.store.kind? id = some kind → kind.isDeclaration = true →
      (progress = .done ↔ final.store.isResolved id = true)) ∧
    (∀ reference, final.store.typeRef? id = some reference →
      (progress = .done ↔ reference.target.isSome = true ∨ reference.failed = true)) ∧
    (∀ reference, final.store.nameRef? id = some reference →
      (progress = .done ↔ reference.target.isSome = true ∨ reference.failed = true)) ∧
    (∀ value, final.store.literal? id = some value → progress = .done) ∧
    (∀ scope, final.store.module? id = some scope → progress = .done →
      ∀ decl ∈ scope.declarations, final.store.Present decl → final.store.Done decl) ∧
    (progress = .pending → final.store.get? id = resolution.store.get? id) := by
  have walked := walks_resolve acyclic (.refl _) path id
  rw [answered] at walked
  have advances := walked.advances.store
  refine ⟨advances.kind?_eq id, ?_, ?_, ?_, ?_, ?_, ?_⟩
  · intro kind known declares
    obtain ⟨later, found, rfl⟩ := Option.map_eq_some_iff.mp known
    rw [walked.done_iff_isMarked acyclic found (Content.isMarkable_of_isDeclaration declares),
      Store.isResolved, found, Option.any_some]
    exact ⟨Content.isResolved_of_isMarked declares, Content.isMarked_of_isResolved⟩
  · intro reference isType
    have found := Store.typeRef?_eq_some_iff.mp isType
    rw [walked.done_iff_isMarked acyclic found rfl]
    exact iff_of_eq (Bool.or_eq_true _ _)
  · intro reference isName
    have found := Store.nameRef?_eq_some_iff.mp isName
    rw [walked.done_iff_isMarked acyclic found rfl]
    exact iff_of_eq (Bool.or_eq_true _ _)
  · intro value isLiteral
    have found := Store.literal?_eq_some_iff.mp isLiteral
    cases progress with
    | done => rfl
    | pending =>
      obtain ⟨content, -, foundAgain, -, noLiteral⟩ := walked.of_pending acyclic
      rw [found] at foundAgain
      cases foundAgain
      exact absurd rfl noLiteral
  · intro scope isModule isDone decl listed present
    have found := Store.module?_eq_some_iff.mp isModule
    obtain ⟨-, children⟩ := (walked.settled isDone).children found rfl
    exact (children decl (Content.mem_children_module.mpr listed)).done present
  · rintro rfl
    obtain ⟨content, foundBefore, foundAfter, -, -⟩ := walked.of_pending acyclic
    exact Store.get?_eq_of_content?_eq (advances.span id) (foundAfter.trans foundBefore.symm)

/-- An enumeration over a type that is not declared, with a member whose value is a variable. -/
def halfway : Resolution :=
  ofModules
    ⟨#[⟨.typeRef { name := ⟨1⟩ }, ⟨15, 22⟩⟩,
      ⟨.nameRef { path := [⟨2⟩] }, ⟨29, 34⟩⟩,
      ⟨.element { header := { name := ⟨3⟩ }, value := some ⟨1⟩, valueSet := true }, ⟨25, 34⟩⟩,
      ⟨.literal (.int 0), ⟨0, 36⟩⟩,
      ⟨.enum
        { header := { name := ⟨4⟩ }
          members := ⟨#[(⟨3⟩, ⟨2⟩)], Std.TreeMap.empty.insert 3 0⟩
          underlying := .explicit ⟨0⟩
          lastValue := ⟨3⟩ }, ⟨0, 36⟩⟩,
      ⟨.variable { header := { name := ⟨2⟩ } }, ⟨37, 46⟩⟩,
      ⟨.module
        { name := ⟨5⟩
          declarations := [⟨4⟩, ⟨5⟩]
          symbols := [(⟨4⟩, ⟨4⟩), (⟨2⟩, ⟨5⟩)] }, ⟨0, 46⟩⟩]⟩
    (.ofTexts ["Missing", "limit", "A", "Mode", "main"]) [⟨6⟩]

/-- The value is bound and the member resolved; the enumeration stays open and is what it was. -/
theorem resolve_mirrors_halfway :
    halfway.store.Acyclic ∧
    (halfway.resolve (.ofOutermost [⟨6⟩]) ⟨4⟩).1 = .pending ∧
    halfway.store.isResolved ⟨2⟩ = false ∧
    (halfway.resolve (.ofOutermost [⟨6⟩]) ⟨4⟩).2.store.isResolved ⟨2⟩ = true ∧
    (halfway.resolve (.ofOutermost [⟨6⟩]) ⟨4⟩).2.store.isResolved ⟨4⟩ ≠ true ∧
    (halfway.resolve (.ofOutermost [⟨6⟩]) ⟨4⟩).2.store.get? ⟨4⟩ = halfway.store.get? ⟨4⟩ := by
  have acyclic : halfway.store.Acyclic := Store.acyclic_of_earlier (by decide)
  have isPending : (halfway.resolve (.ofOutermost [⟨6⟩]) ⟨4⟩).1 = .pending := by decide
  obtain ⟨-, declared, -, -, -, -, kept⟩ :=
    resolve_mirrors acyclic (.ofOutermost [⟨6⟩]) ⟨4⟩ (Prod.eta _).symm
  refine ⟨acyclic, isPending, by decide, by decide, ?_, kept isPending⟩
  rw [Ne, ← declared .enum (by decide) rfl, isPending]
  decide

end Resolution

end Declarations
