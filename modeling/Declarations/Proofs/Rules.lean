import Declarations.Proofs.Replay

/-!
# Rules of resolution

When a declaration counts as resolved can be said without passes and walks, by rules over a set of
declarations: a declaration belongs to the set when all that it holds settles, and a type reference
settles when the type that it finds belongs to the set. `Settles` says what settles with respect to
a set, `Reached` where the rules apply, and `Closed` that a set obeys them. The second half of the
module shows that the marks of a resolution stay within every closed set.
-/

namespace Declarations.Resolution

/-- A type reference finds a builtin type, a type of the set, or what is no type. The last is an
error that no further pass can mend. -/
def TypeReady (resolution : Resolution) (resolved : Set NodeId) (path : Path) (name : Name) :
    Prop :=
  match resolution.lookup path name with
  | none => False
  | some (.builtin _) => True
  | some (.decl decl) =>
    (resolution.store.kind? decl).any Kind.isTypeDecl = true → decl ∈ resolved

/-- A name reference is empty, or finds what it can be bound to or an error for good. Further names
than the first have a meaning only after a type, and there only as one element of an enumeration. -/
def NameReady (resolution : Resolution) (path : Path) : List Name → Prop
  | [] => True
  | head :: rest =>
    match resolution.lookup path head with
    | none => False
    | some (.builtin _) => True
    | some (.decl decl) =>
      match resolution.store.content? decl, rest with
      | none, _ => False
      | some _, [] => True
      | some (.enum data), [element] => (data.members.get? element).isSome = true
      | some content, _ => content.kind.isTypeDecl = false

/-- Whether a reference can be bound or given up once the declarations of the set are resolved. -/
def Ready (resolution : Resolution) (resolved : Set NodeId) (path : Path) : Content → Prop
  | .typeRef reference => resolution.TypeReady resolved path reference.name
  | .nameRef reference => resolution.NameReady path reference.path
  | _ => True

/-- What settles once the declarations of the set are resolved: a literal, a declaration of the set,
a module all of whose declarations settle, and a reference that is ready. -/
inductive Settles (resolution : Resolution) (resolved : Set NodeId) : Path → NodeId → Prop
  | literal {path : Path} {id : NodeId} {value : Literal}
      (found : resolution.store.content? id = some (.literal value)) :
      Settles resolution resolved path id
  | declaration {path : Path} {id : NodeId} {content : Content}
      (found : resolution.store.content? id = some content)
      (declares : content.kind.isDeclaration = true) (member : id ∈ resolved) :
      Settles resolution resolved path id
  | module {path : Path} {id : NodeId} {data : Module}
      (found : resolution.store.content? id = some (.module data))
      (declarations : ∀ child ∈ data.declarations,
        Settles resolution resolved (path.push id) child) : Settles resolution resolved path id
  | reference {path : Path} {id : NodeId} {content : Content}
      (found : resolution.store.content? id = some content)
      (isReference : content.isReference = true)
      (ready : resolution.Ready resolved (path.push id) content) :
      Settles resolution resolved path id

/-- Where a walk comes by once the declarations of the set are resolved. A node of a later stage is
reached only when the stages before it settle. -/
inductive Reached (resolution : Resolution) (resolved : Set NodeId) : Path → NodeId → Prop
  | root {id : NodeId} (listed : id ∈ resolution.modules) : Reached resolution resolved .empty id
  | child {path : Path} {parent child : NodeId} {content : Content}
      {before after : List (List NodeId)} {stage : List NodeId}
      (above : Reached resolution resolved path parent)
      (found : resolution.store.content? parent = some content)
      (split : content.stages = before ++ stage :: after)
      (earlier : ∀ other ∈ before.flatten, Settles resolution resolved (path.push parent) other)
      (member : child ∈ stage) : Reached resolution resolved (path.push parent) child

/-- The set obeys the rule for declarations at the places of which `At` holds: one whose type,
value, and members settle, as far as it has any, belongs to the set. -/
def ClosedAt (resolution : Resolution) (At : Path → NodeId → Prop) (resolved : Set NodeId) : Prop :=
  ∀ ⦃path id content⦄, At path id → resolution.store.content? id = some content →
    content.kind.isDeclaration = true →
    (∀ child ∈ content.children, resolution.Settles resolved (path.push id) child) → id ∈ resolved

/-- The set obeys the rule wherever a walk comes by. -/
def Closed (resolution : Resolution) (resolved : Set NodeId) : Prop :=
  resolution.ClosedAt (resolution.Reached resolved) resolved

variable {base current : Resolution} {resolved : Set NodeId} {path : Path} {id : NodeId}
  {content : Content}

theorem Reached.position (reached : base.Reached resolved path id) : base.Position path id := by
  induction reached with
  | root listed => exact .root listed
  | child _ found split _ member ih =>
    exact .child ih
      (Store.holds_iff.mpr ⟨_, found, Content.mem_children_of_stage split (Or.inr member)⟩)

/-! ## Verdicts that do not wait -/

theorem judgeName_ne_wait_iff (resolution : Resolution) (path : Path) (span : Span)
    (names : List Name) :
    (∀ reason, resolution.judgeName path span names ≠ .wait reason) ↔
      resolution.NameReady path names := by
  cases names with
  | nil => simp [judgeName, NameReady]
  | cons head rest =>
    simp only [judgeName, NameReady]
    cases resolution.lookup path head with
    | none => simp
    | some symbol =>
      cases symbol with
      | builtin builtin => simp
      | decl decl =>
        simp only [judgeQualified]
        cases resolution.store.content? decl with
        | none => simp
        | some content =>
          -- only an enumeration looks at its members, and only for one more name
          rcases rest with _ | ⟨element, _ | ⟨next, more⟩⟩
          · cases content <;> simp
          · cases content with
            | enum data =>
              dsimp only
              cases data.members.get? element <;> simp
            | _ => simp [Content.kind, Kind.isTypeDecl]
          · cases content <;> simp [Content.kind, Kind.isTypeDecl]

/-- A reference does not wait exactly when it is ready with the declarations resolved so far. -/
theorem judge_ne_wait_iff (resolution : Resolution) (path : Path) (id : NodeId)
    (content : Content) :
    (∀ reason, resolution.judge path id content ≠ .wait reason) ↔
      resolution.Ready {decl | resolution.store.isResolved decl = true} path content := by
  cases content with
  | typeRef reference =>
    simp only [judge, judgeType, Ready, TypeReady]
    cases resolution.lookup path reference.name with
    | none => simp [Verdict.map]
    | some symbol =>
      cases symbol with
      | builtin builtin => simp [Verdict.map]
      | decl decl =>
        dsimp only
        cases resolution.store.kind? decl with
        | none => simp [Verdict.map]
        | some kind =>
          cases isType : kind.isTypeDecl with
          | false => simp [Verdict.map, isType]
          | true =>
            cases resolved : resolution.store.isResolved decl <;>
              simp [Verdict.map, isType, resolved]
  | nameRef reference =>
    rw [Ready, ← judgeName_ne_wait_iff resolution path (resolution.store.span id), judge]
    cases resolution.judgeName path (resolution.store.span id) reference.path <;>
      simp [Verdict.map]
  | _ => simp [judge, Ready]

theorem Parallel.ready_iff (parallel : base.Parallel current) :
    current.Ready resolved path content ↔ base.Ready resolved path content := by
  cases content with
  | typeRef reference =>
    simp only [Ready, TypeReady, parallel.lookup_eq, parallel.store.kind?_eq]
  | nameRef reference =>
    rw [Ready, Ready, ← judgeName_ne_wait_iff _ _ .nowhere, ← judgeName_ne_wait_iff _ _ .nowhere,
      parallel.judgeName_eq]
  | _ => exact Iff.rfl

theorem Ready.mono {larger : Set NodeId} (ready : base.Ready resolved path content)
    (subset : ∀ decl ∈ resolved, (base.store.kind? decl).any Kind.isTypeDecl = true →
      decl ∈ larger) : base.Ready larger path content := by
  cases content with
  | typeRef reference =>
    simp only [Ready, TypeReady] at ready ⊢
    cases found : base.lookup path reference.name with
    | none =>
      rw [found] at ready
      exact ready
    | some symbol =>
      rw [found] at ready
      cases symbol with
      | builtin builtin => trivial
      | decl decl => exact fun isType => subset decl (ready isType) isType
  | nameRef reference => exact ready
  | _ => trivial

/-! ## Marks stay within closed sets -/

section Soundness

variable (fresh : base.store.Fresh) (placed : base.WellPlaced)

include fresh

/-- What is marked since a fresh start has been kept. -/
theorem Justified.kept {At : Path → NodeId → Prop} {Kept : NodeId → Prop}
    (justified : Justified At Kept base current)
    (isResolved : current.store.isResolved id = true) : Kept id := by
  obtain ⟨later, foundLater, -⟩ := Store.isResolved_iff.mp isResolved
  obtain ⟨content, found, -⟩ := justified.advances.store.backward foundLater
  exact (justified.declaration found (fresh found) isResolved).1

include placed

/-- What is settled settles by the rules. -/
theorem Justified.settles {lost : Prop}
    (justified : Justified (base.Reached resolved) (· ∈ resolved) base current)
    (position : base.Position path id) (settled : current.store.Settled lost id) :
    base.Settles resolved path id := by
  induction settled generalizing path with
  | @missing id found =>
    have present := justified.advances.store.present_iff.mpr (placed.present position)
    rw [Store.Present, found] at present
    cases present
  | @marked id later foundLater isMarked =>
    obtain ⟨content, found, step⟩ := justified.advances.store.backward foundLater
    cases isReference : content.isReference with
    | true =>
      obtain ⟨other, reached, answers⟩ :=
        justified.reference found foundLater isReference (fresh found) isMarked
      -- the place where the reference was judged has the same module around it
      rw [placed.judge_eq justified.advances reached.position position] at answers
      have ready := (judge_ne_wait_iff current (path.push id) id content).mp answers.ne_wait
      refine .reference found isReference ((justified.advances.parallel.ready_iff.mp ready).mono ?_)
      intro decl isResolved _
      exact justified.kept fresh isResolved
    | false =>
      have declares : later.kind.isDeclaration = true :=
        Content.isDeclaration_of_isMarkable (step.isReference_eq.trans isReference)
          (Content.isMarkable_of_isMarked isMarked)
      have isResolved : current.store.isResolved id = true :=
        Store.isResolved_iff.mpr
          ⟨later, foundLater, Content.isResolved_of_isMarked declares isMarked⟩
      rw [step.kind_eq] at declares
      exact .declaration found declares (justified.kept fresh isResolved)
  | @holder id later foundLater unmarkable _ ih =>
    have found := justified.advances.store.found_of_not_isMarked foundLater
      (Content.not_isMarked_of_not_isMarkable unmarkable)
    cases later with
    | literal value => exact .literal found
    | module data =>
      refine .module found ?_
      intro child held
      have inside : child ∈ (Content.module data).children := by
        rw [Content.children, Content.stages, List.flatten_singleton]
        exact held
      exact ih child inside (.child position (Store.holds_iff.mpr ⟨_, found, inside⟩))
    | _ => cases unmarkable

/-- Walks stay where the rules of a closed set lead, and mark what belongs to it. -/
theorem route_reached (closed : base.Closed resolved) :
    Route (base.Reached resolved) (· ∈ resolved) base where
  root listed := .root listed
  below {current path id later before stage after child} justified reached foundLater split settled
      member := by
    obtain ⟨content, found, step⟩ := justified.advances.store.backward foundLater
    rw [step.stages_eq] at split
    refine .child reached found split ?_ member
    intro other early
    have held := Content.mem_children_of_stage split (Or.inl early)
    exact justified.settles fresh placed
      (.child reached.position (Store.holds_iff.mpr ⟨content, found, held⟩)) (settled other early)
  keeps {current path id later} justified reached foundLater declares settled := by
    obtain ⟨content, found, step⟩ := justified.advances.store.backward foundLater
    rw [step.kind_eq] at declares
    rw [step.children_eq] at settled
    refine closed reached found declares ?_
    intro child held
    exact justified.settles fresh placed
      (.child reached.position (Store.holds_iff.mpr ⟨content, found, held⟩)) (settled child held)

end Soundness

end Declarations.Resolution
