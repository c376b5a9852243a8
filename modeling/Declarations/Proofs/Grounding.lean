import Declarations.Proofs.Calls
import Declarations.Proofs.Trust

/-!
# Bindings rest on resolved ground

Names may form cycles, and nothing in a resolution looks for them. Yet what it binds forms none: a
reference is bound only to a type that is resolved already, and a declaration is marked only when
all it holds is settled. So every mark rests on older ones. `Grounded` says that the way from a node
down to what it rests on ends everywhere; the steps of a resolution keep every marked node grounded,
and with it the bindings sound.
-/

namespace Declarations

namespace Content

/-- Whether the node is a reference that is bound. -/
def isBound : Content → Bool
  | .typeRef data => data.target.isSome
  | .nameRef data => data.target.isSome
  | _ => false

theorem not_isBound_of_not_isMarked {content : Content} (isOpen : content.isMarked = false) :
    content.isBound = false := by
  cases content with
  | typeRef data => exact (Bool.or_eq_false_iff.mp isOpen).1
  | nameRef data => exact (Bool.or_eq_false_iff.mp isOpen).1
  | _ => rfl

@[simp] theorem isBound_givenUp (content : Content) :
    content.givenUp.isBound = content.isBound := by
  cases content <;> rfl

theorem isReference_of_isBound {content : Content} (bound : content.isBound = true) :
    content.isReference = true := by
  cases content <;> first | rfl | cases bound

theorem isMarked_of_isBound {content : Content} (bound : content.isBound = true) :
    content.isMarked = true := by
  cases isMarked : content.isMarked with
  | true => rfl
  | false =>
    rw [not_isBound_of_not_isMarked isMarked] at bound
    cases bound

end Content

namespace Store

/-- One node leads to another: it holds it, or it is a type reference bound to it. -/
def LeadsTo (store : Store) (id next : NodeId) : Prop :=
  store.Holds id next ∨
    ∃ reference, store.typeRef? id = some reference ∧ reference.target = some (.decl next)

/-- What the marks of a store promise. -/
structure Sound (store : Store) : Prop where
  /-- A type reference that is bound to a declaration is bound to a resolved cover or
  enumeration. -/
  bound : ∀ {id reference decl}, store.typeRef? id = some reference →
    reference.target = some (.decl decl) →
    (store.kind? decl = some .cover ∨ store.kind? decl = some .enum) ∧
      store.isResolved decl = true
  /-- The type references that a resolved declaration holds are bound or given up. -/
  typeRef : ∀ {decl child reference}, store.isResolved decl = true → store.Holds decl child →
    store.typeRef? child = some reference →
    reference.target.isSome = true ∨ reference.failed = true
  /-- So are its name references. -/
  nameRef : ∀ {decl child reference}, store.isResolved decl = true → store.Holds decl child →
    store.nameRef? child = some reference →
    reference.target.isSome = true ∨ reference.failed = true
  /-- The declarations that a resolved declaration holds are resolved. -/
  declaration : ∀ {decl child kind}, store.isResolved decl = true → store.Holds decl child →
    store.kind? child = some kind → kind.isDeclaration = true → store.isResolved child = true
  /-- No type reference is both bound and given up. -/
  typeRef_exclusive : ∀ {id reference}, store.typeRef? id = some reference →
    ¬ (reference.target.isSome = true ∧ reference.failed = true)
  /-- No name reference is. -/
  nameRef_exclusive : ∀ {id reference}, store.nameRef? id = some reference →
    ¬ (reference.target.isSome = true ∧ reference.failed = true)
  /-- No way from a resolved declaration comes to a cycle. -/
  acyclic : ∀ {decl id}, store.isResolved decl = true →
    Relation.ReflTransGen store.LeadsTo decl id → ¬ Relation.TransGen store.LeadsTo id id
  /-- Every way from a resolved declaration ends. -/
  ends : ∀ (way : Nat → NodeId), store.isResolved (way 0) = true →
    ∃ length, ¬ store.LeadsTo (way length) (way (length + 1))

/-- The way from a node down to what it rests on ends everywhere, and all on it is settled. -/
inductive Grounded (store : Store) : NodeId → Prop
  | missing {id : NodeId} (found : store.content? id = none) : Grounded store id
  | found {id : NodeId} {content : Content} (found : store.content? id = some content)
      (settled : content.isMarkable = true → content.isMarked = true)
      (below : ∀ next, store.LeadsTo id next → Grounded store next) : Grounded store id

/-- All that bears its mark is grounded. -/
def GroundsMarks (store : Store) : Prop :=
  ∀ ⦃id content⦄, store.content? id = some content → content.isMarked = true → store.Grounded id

variable {first second store : Store} {id : NodeId} {content : Content}

/-- Where a node leads can be read off its content. -/
theorem leadsTo_iff (found : store.content? id = some content) {next : NodeId} :
    store.LeadsTo id next ↔ next ∈ content.children ∨
      ∃ reference, content = .typeRef reference ∧ reference.target = some (.decl next) := by
  simp only [LeadsTo, holds_iff, typeRef?_eq_some_iff, found, Option.some.injEq, exists_eq_left']

theorem not_leadsTo_of_missing (missing : store.content? id = none) (next : NodeId) :
    ¬ store.LeadsTo id next := by
  rintro (held | ⟨reference, found, -⟩)
  · obtain ⟨content, found, -⟩ := holds_iff.mp held
    rw [missing] at found
    cases found
  · rw [typeRef?_eq_some_iff, missing] at found
    cases found

/-! ## Ground is kept -/

/-- What is grounded stays so: all on the way down bears its mark already. -/
theorem Grounded.mono (grounded : first.Grounded id) (advances : first.Advances second) :
    second.Grounded id := by
  induction grounded with
  | missing found => exact .missing (advances.content?_eq_none.mpr found)
  | @found id content found settled _ ih =>
    obtain ⟨later, foundLater, step⟩ := advances.forward found
    have same : later = content := by
      rcases step.eq_or_marked with equal | ⟨isOpen, marked⟩
      · exact equal
      · have markable := step.isMarkable_eq ▸ Content.isMarkable_of_isMarked marked
        rw [settled markable] at isOpen
        cases isOpen
    subst same
    refine .found foundLater settled ?_
    intro next leads
    exact ih next ((leadsTo_iff found).mpr ((leadsTo_iff foundLater).mp leads))

/-- What is settled is grounded, where the marks are. -/
theorem GroundsMarks.of_settled (grounds : store.GroundsMarks) {lost : Prop}
    (settled : store.Settled lost id) : store.Grounded id := by
  induction settled with
  | missing found => exact .missing found
  | marked found isMarked => exact grounds found isMarked
  | @holder id content found unmarkable _ ih =>
    refine .found found ?_ ?_
    · intro markable
      rw [unmarkable] at markable
      cases markable
    · intro next leads
      rcases (leadsTo_iff found).mp leads with held | ⟨reference, rfl, -⟩
      · exact ih next held
      · cases unmarkable

/-- A declaration that is resolved is grounded, where the marks are. -/
theorem GroundsMarks.of_isResolved (grounds : store.GroundsMarks)
    (resolved : store.isResolved id = true) : store.Grounded id := by
  obtain ⟨content, found, isResolved⟩ := isResolved_iff.mp resolved
  exact grounds found (Content.isMarked_of_isResolved isResolved)

/-- One step puts one mark. It is grounded if all that the marked node leads to was before. -/
theorem GroundsMarks.modify {f : Content → Content} (grounds : store.GroundsMarks)
    (found : store.content? id = some content) (advances : store.Advances (store.modify id f))
    (marked : (f content).isMarked = true)
    (below : ∀ next, (next ∈ (f content).children ∨
      ∃ reference, f content = .typeRef reference ∧ reference.target = some (.decl next)) →
      store.Grounded next) :
    (store.modify id f).GroundsMarks := by
  intro other after foundAfter markedAfter
  by_cases own : id = other
  · subst own
    have foundLater : (store.modify id f).content? id = some (f content) := by
      rw [content?_modify_same, found, Option.map_some]
    refine .found foundLater (fun _ => marked) ?_
    intro next leads
    exact (below next ((leadsTo_iff foundLater).mp leads)).mono advances
  · rw [content?_modify, if_neg own] at foundAfter
    exact (grounds foundAfter markedAfter).mono advances

/-! ## From grounded nodes every way ends -/

theorem Grounded.next (grounded : store.Grounded id) {next : NodeId}
    (leads : store.LeadsTo id next) : store.Grounded next := by
  cases grounded with
  | missing found => exact absurd leads (not_leadsTo_of_missing found next)
  | found _ _ below => exact below next leads

theorem Grounded.reaches (grounded : store.Grounded id) {last : NodeId}
    (reached : Relation.ReflTransGen store.LeadsTo id last) : store.Grounded last := by
  induction reached with
  | refl => exact grounded
  | tail _ leads ih => exact ih.next leads

/-- A grounded node does not lead back to itself. -/
theorem Grounded.not_cycle (grounded : store.Grounded id) :
    ¬ Relation.TransGen store.LeadsTo id id := by
  induction grounded with
  | @missing id found =>
    intro cycle
    obtain ⟨next, leads, -⟩ := Relation.TransGen.head'_iff.mp cycle
    exact not_leadsTo_of_missing found next leads
  | found _ _ _ ih =>
    -- a cycle through the node is one through the next
    intro cycle
    obtain ⟨next, leads, back⟩ := Relation.TransGen.head'_iff.mp cycle
    exact ih next leads (Relation.TransGen.tail' back leads)

theorem Grounded.ends (grounded : store.Grounded id) (way : Nat → NodeId) (starts : way 0 = id) :
    ∃ length, ¬ store.LeadsTo (way length) (way (length + 1)) := by
  induction grounded generalizing way with
  | @missing id found =>
    refine ⟨0, ?_⟩
    rw [starts]
    exact not_leadsTo_of_missing found _
  | found _ _ _ ih =>
    by_cases leads : store.LeadsTo (way 0) (way 1)
    · rw [starts] at leads
      obtain ⟨length, stops⟩ := ih (way 1) leads (fun index => way (index + 1)) rfl
      exact ⟨length + 1, stops⟩
    · exact ⟨0, leads⟩

end Store

namespace Resolution

variable {resolution base current : Resolution} {path : Path} {id : NodeId} {content : Content}

/-- A type reference is bound only to a type that is resolved. -/
theorem judgeType_bind_decl {span : Span} {name : Name} {decl : NodeId}
    (judged : resolution.judgeType path span name = .bind (.decl decl)) :
    (resolution.store.kind? decl).any Kind.isTypeDecl = true ∧
      resolution.store.isResolved decl = true := by
  simp only [judgeType] at judged
  cases found : resolution.lookup path name with
  | none =>
    rw [found] at judged
    cases judged
  | some symbol =>
    rw [found] at judged
    cases symbol with
    | builtin builtin => cases judged
    | decl other =>
      dsimp only at judged
      cases known : resolution.store.kind? other with
      | none =>
        rw [known] at judged
        cases judged
      | some kind =>
        rw [known] at judged
        dsimp only at judged
        cases isType : kind.isTypeDecl with
        | false =>
          rw [isType] at judged
          cases judged
        | true =>
          rw [isType] at judged
          cases resolved : resolution.store.isResolved other with
          | false =>
            rw [resolved] at judged
            cases judged
          | true =>
            rw [resolved] at judged
            cases judged
            rw [known]
            exact ⟨isType, resolved⟩

/-- What a bound type reference leads to is a type that was resolved before. -/
theorem judge_bind_typeRef {reference : TypeReference} {decl : NodeId}
    (isReference : content.isReference = true) (isOpen : content.isMarked = false)
    (judged : resolution.judge path id content = .bind (.typeRef reference))
    (target : reference.target = some (.decl decl)) :
    (resolution.store.kind? decl).any Kind.isTypeDecl = true ∧
      resolution.store.isResolved decl = true := by
  cases content with
  | typeRef given =>
    rw [judge] at judged
    cases verdict : resolution.judgeType path (resolution.store.span id) given.name with
    | bind found =>
      rw [verdict] at judged
      cases judged
      cases target
      exact judgeType_bind_decl verdict
    | wait reason =>
      rw [verdict] at judged
      cases judged
    | reject report =>
      rw [verdict] at judged
      cases judged
  | _ =>
    have sameKind := (judge_bind isReference isOpen judged).1.kind_eq
    cases sameKind

/-- A walk keeps every marked node grounded. -/
theorem Walks.groundsMarks {levels : Nat} {progress : Progress} {start final : Resolution}
    (walked : Walks levels path id start progress final) (grounds : start.store.GroundsMarks) :
    final.store.GroundsMarks := by
  refine walked.invariant (fun current => current.store.GroundsMarks) (fun _ _ => True)
    (fun _ _ _ _ _ _ => trivial) ?_ ?_ ?_ ?_ ?_ trivial grounds
  · intro path id current _ grounds _
    exact grounds
  · intro path id current content bound _ grounds found isReference isOpen judged
    have advances := advances_bind found isReference isOpen judged
    obtain ⟨step, marked, -⟩ := judge_bind isReference isOpen judged
    refine grounds.modify found advances.store marked ?_
    intro next leads
    rcases leads with held | ⟨reference, rfl, target⟩
    · rw [step.children_eq, Content.children_of_isReference isReference] at held
      cases held
    · exact grounds.of_isResolved (judge_bind_typeRef isReference isOpen judged target).2
  · intro path id current content reason _ grounds _ _ _ _
    exact grounds
  · intro path id current content report _ grounds found isReference isOpen judged
    have advances := advances_giveUp found isOpen report
    refine grounds.modify found advances.store (Content.isMarked_givenUp isReference) ?_
    intro next leads
    -- what is open is not bound, so a reference that is given up leads nowhere
    have unbound : content.givenUp.isBound = false := by
      rw [Content.isBound_givenUp]
      exact Content.not_isBound_of_not_isMarked isOpen
    rcases leads with held | ⟨reference, same, target⟩
    · rw [(Content.Advances.giveUp isOpen).children_eq,
        Content.children_of_isReference isReference] at held
      cases held
    · rw [same, Content.isBound, target] at unbound
      cases unbound
  · intro path id current content _ grounds found declares isOpen settled
    refine grounds.modify found (advances_finish current id).store
      (Content.isMarked_mapHeader_markResolved declares) ?_
    intro next leads
    have step : content.Advances (content.mapHeader Header.markResolved) := .resolve content
    rcases leads with held | ⟨reference, same, -⟩
    · rw [step.children_eq] at held
      exact grounds.of_settled (settled next held)
    · rw [← step.kind_eq, same] at declares
      cases declares

/-- Calls keep the reasons of all marks and the ground that they stand on. -/
theorem stable_grounded (acyclic : base.store.Acyclic) :
    Stable fun current =>
      Justified (fun _ _ => True) (fun _ => True) base current ∧ current.store.GroundsMarks where
  acyclic holds := holds.1.advances.store.acyclic acyclic
  walk walked holds :=
    ⟨(holds.1.walk_keeps (route_anywhere base) (keeps_true _ _ base) walked trivial trivial).1,
      walked.groundsMarks holds.2⟩
  neutral advances same holds := ⟨holds.1.neutral advances same, same ▸ holds.2⟩

/-! ## Soundness -/

namespace Justified

variable {At : Path → NodeId → Prop} {Kept : NodeId → Prop}

/-- Every marked reference was judged, and is what the verdict made of it. -/
theorem answers (justified : Justified At Kept base current) (fresh : base.store.Fresh)
    (found : current.store.content? id = some content) (isReference : content.isReference = true)
    (isMarked : content.isMarked = true) :
    ∃ path given, given.isReference = true ∧ given.isMarked = false ∧
      (current.judge path id given).Answers given content := by
  obtain ⟨given, foundGiven, step⟩ := justified.advances.store.backward found
  have isOpen := fresh foundGiven
  have givenReference := step.isReference_eq ▸ isReference
  obtain ⟨path, -, answers⟩ :=
    justified.reference foundGiven found givenReference isOpen isMarked
  exact ⟨path.push id, given, givenReference, isOpen, answers⟩

/-- A reference is bound by a verdict that binds it, and is not given up then. -/
theorem judge_eq_bind (justified : Justified At Kept base current) (fresh : base.store.Fresh)
    (found : current.store.content? id = some content) (bound : content.isBound = true) :
    content.isGivenUp = false ∧ ∃ path given, given.isReference = true ∧ given.isMarked = false ∧
      current.judge path id given = .bind content := by
  obtain ⟨path, given, isReference, isOpen, answers⟩ := justified.answers fresh found
    (Content.isReference_of_isBound bound) (Content.isMarked_of_isBound bound)
  generalize judged : current.judge path id given = verdict at answers
  cases answers with
  | bind =>
    refine ⟨?_, path, given, isReference, isOpen, judged⟩
    rw [(judge_bind isReference isOpen judged).2.2]
    cases givenUp : given.isGivenUp with
    | false => rfl
    | true =>
      rw [Content.isMarked_of_isGivenUp givenUp] at isOpen
      cases isOpen
  | reject =>
    rw [Content.isBound_givenUp, Content.not_isBound_of_not_isMarked isOpen] at bound
    cases bound

/-- What a resolved declaration holds bears its mark, if it can. -/
theorem isMarked_of_holds (justified : Justified At Kept base current)
    (fresh : base.store.Fresh) {decl : NodeId} (resolved : current.store.isResolved decl = true)
    (held : current.store.Holds decl id) (found : current.store.content? id = some content)
    (markable : content.isMarkable = true) : content.isMarked = true := by
  obtain ⟨holder, foundHolder, isResolved⟩ := Store.isResolved_iff.mp resolved
  obtain ⟨other, foundOther, member⟩ := Store.holds_iff.mp held
  rw [foundHolder] at foundOther
  cases foundOther
  have settled := justified.settled_below fresh
    (.marked foundHolder (Content.isMarked_of_isResolved isResolved)) foundHolder member
  exact settled.isMarked found markable

/-- Marks that have a reason and stand on grounded nodes are sound. -/
theorem sound (justified : Justified At Kept base current) (fresh : base.store.Fresh)
    (grounds : current.store.GroundsMarks) : current.store.Sound where
  bound := by
    intro id reference decl known target
    have found := Store.typeRef?_eq_some_iff.mp known
    have bound : (Content.typeRef reference).isBound = true := by
      rw [Content.isBound, target]
      rfl
    obtain ⟨-, path, given, isReference, isOpen, judged⟩ :=
      justified.judge_eq_bind fresh found bound
    obtain ⟨isType, resolved⟩ := judge_bind_typeRef isReference isOpen judged target
    refine ⟨?_, resolved⟩
    obtain ⟨kind, knownKind, typeKind⟩ := (Option.any_eq_true _ _).mp isType
    rw [knownKind]
    cases kind with
    | cover => exact Or.inl rfl
    | enum => exact Or.inr rfl
    | _ => cases typeKind
  typeRef resolved held known := (Bool.or_eq_true _ _).mp
    (justified.isMarked_of_holds fresh resolved held (Store.typeRef?_eq_some_iff.mp known) rfl)
  nameRef resolved held known := (Bool.or_eq_true _ _).mp
    (justified.isMarked_of_holds fresh resolved held (Store.nameRef?_eq_some_iff.mp known) rfl)
  declaration := by
    intro decl child kind resolved held known declares
    obtain ⟨content, found, rfl⟩ := Option.map_eq_some_iff.mp known
    have isMarked := justified.isMarked_of_holds fresh resolved held found
      (Content.isMarkable_of_isDeclaration declares)
    exact Store.isResolved_iff.mpr
      ⟨content, found, Content.isResolved_of_isMarked declares isMarked⟩
  typeRef_exclusive := by
    intro id reference known ⟨bound, failed⟩
    have unfailed : reference.failed = false :=
      (justified.judge_eq_bind fresh (Store.typeRef?_eq_some_iff.mp known) bound).1
    rw [failed] at unfailed
    cases unfailed
  nameRef_exclusive := by
    intro id reference known ⟨bound, failed⟩
    have unfailed : reference.failed = false :=
      (justified.judge_eq_bind fresh (Store.nameRef?_eq_some_iff.mp known) bound).1
    rw [failed] at unfailed
    cases unfailed
  acyclic resolved reached := ((grounds.of_isResolved resolved).reaches reached).not_cycle
  ends way resolved := (grounds.of_isResolved resolved).ends way rfl

end Justified

/-- Whatever is called on a resolution that began without marks, its bindings are sound. -/
theorem afterAll_sound (fresh : resolution.store.Fresh) (acyclic : resolution.store.Acyclic)
    (calls : List Call) : (resolution.afterAll calls).store.Sound := by
  have grounds : resolution.store.GroundsMarks := by
    intro id content found isMarked
    rw [fresh found] at isMarked
    cases isMarked
  obtain ⟨justified, kept⟩ := (stable_grounded acyclic).afterAll ⟨.refl resolution, grounds⟩ calls
  exact justified.sound fresh kept

/-- Two covers that name each other, an enumeration with an element that is its own value, and a
cover that names a later one. -/
def knotted : Resolution :=
  ofModules
    ⟨#[⟨.typeRef { name := ⟨2⟩ }, ⟨12, 15⟩⟩,
      ⟨.cover { header := { name := ⟨1⟩ }, fromType := some ⟨0⟩ }, ⟨0, 15⟩⟩,
      ⟨.typeRef { name := ⟨1⟩ }, ⟨28, 32⟩⟩,
      ⟨.cover { header := { name := ⟨2⟩ }, fromType := some ⟨2⟩ }, ⟨16, 32⟩⟩,
      ⟨.nameRef { path := [⟨3⟩, ⟨4⟩] }, ⟨50, 54⟩⟩,
      ⟨.element { header := { name := ⟨4⟩ }, value := some ⟨4⟩, valueSet := true }, ⟨45, 54⟩⟩,
      ⟨.enum
        { header := { name := ⟨3⟩ }
          members := ⟨#[(⟨4⟩, ⟨5⟩)], Std.TreeMap.empty.insert 4 0⟩
          lastValue := ⟨4⟩ }, ⟨33, 55⟩⟩,
      ⟨.typeRef { name := ⟨6⟩ }, ⟨68, 73⟩⟩,
      ⟨.cover { header := { name := ⟨5⟩ }, fromType := some ⟨7⟩ }, ⟨56, 73⟩⟩,
      ⟨.typeRef { name := ⟨7⟩ }, ⟨88, 91⟩⟩,
      ⟨.cover { header := { name := ⟨6⟩ }, fromType := some ⟨9⟩ }, ⟨74, 91⟩⟩,
      ⟨.module
        { name := ⟨8⟩
          declarations := [⟨1⟩, ⟨3⟩, ⟨6⟩, ⟨8⟩, ⟨10⟩]
          symbols := [(⟨1⟩, ⟨1⟩), (⟨2⟩, ⟨3⟩), (⟨3⟩, ⟨6⟩), (⟨5⟩, ⟨8⟩), (⟨6⟩, ⟨10⟩)] }, ⟨0, 91⟩⟩]⟩
    (.ofTexts ["Knot", "Tie", "Loop", "self", "Age", "Count", "Int", "main"]) [⟨11⟩]

theorem afterAll_sound_knotted :
    (knotted.afterAll [.resolve (Path.empty.push ⟨11⟩) ⟨8⟩, .pass, .run]).store.isResolved ⟨8⟩ =
      true ∧
    (knotted.afterAll [.resolve (Path.empty.push ⟨11⟩) ⟨8⟩, .pass, .run]).store.isResolved ⟨6⟩ =
      true ∧
    (knotted.afterAll [.resolve (Path.empty.push ⟨11⟩) ⟨8⟩, .pass, .run]).store.isResolved ⟨1⟩ =
      false ∧
    (knotted.afterAll [.resolve (Path.empty.push ⟨11⟩) ⟨8⟩, .pass, .run]).store.Sound := by
  have fresh : knotted.store.Fresh := by decide
  have acyclic : knotted.store.Acyclic := Store.acyclic_of_earlier (by decide)
  exact ⟨by decide, by decide, by decide, afterAll_sound fresh acyclic _⟩

end Resolution

end Declarations
