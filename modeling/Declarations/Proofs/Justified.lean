import Declarations.Proofs.Pass
import Declarations.Proofs.Settled

/-!
# Marks and their reasons

Every mark that a resolution puts has a reason that stays good: a reference is bound or given up as
its judgement says, and a declaration is marked when all it holds is settled. `Justified` says so of
all marks put since some state of the resolution. It keeps track of where the references stand that
were marked, and of what is known of the declarations.
-/

namespace Declarations

/-- What a verdict that does not wait makes of a reference. -/
inductive Verdict.Answers : Verdict Content → Content → Content → Prop
  | bind {content bound : Content} : Answers (.bind bound) content bound
  | reject {content : Content} {report : Diagnostic} :
      Answers (.reject report) content content.givenUp

theorem Verdict.Answers.ne_wait {verdict : Verdict Content} {content later : Content}
    (answers : verdict.Answers content later) (reason : String) : verdict ≠ .wait reason := by
  cases answers <;> exact fun same => nomatch same

/-- A verdict leaves no choice. -/
theorem Verdict.Answers.unique {verdict : Verdict Content} {content later other : Content}
    (answers : verdict.Answers content later) (again : verdict.Answers content other) :
    later = other := by
  cases answers <;> cases again <;> rfl

/-- Nothing bears a mark yet. -/
def Store.Fresh (store : Store) : Prop :=
  ∀ ⦃id content⦄, store.content? id = some content → content.isMarked = false

theorem Store.exists_node {store : Store} {id : NodeId} {content : Content}
    (found : store.content? id = some content) :
    ∃ node ∈ store.nodes.toList, node.content = content := by
  obtain ⟨node, read, same⟩ := Option.map_eq_some_iff.mp found
  rw [get?, ← Array.getElem?_toList] at read
  exact ⟨node, List.mem_of_getElem? read, same⟩

theorem Store.fresh_iff {store : Store} :
    store.Fresh ↔ ∀ node ∈ store.nodes.toList, node.content.isMarked = false := by
  constructor
  · intro fresh node member
    obtain ⟨index, read⟩ := List.mem_iff_getElem?.mp member
    rw [Array.getElem?_toList] at read
    have found : store.content? ⟨index⟩ = some node.content := by
      rw [content?, get?, read, Option.map_some]
    exact fresh found
  · intro all id content found
    obtain ⟨node, member, rfl⟩ := exists_node found
    exact all node member

instance (store : Store) : Decidable store.Fresh := decidable_of_iff _ Store.fresh_iff.symm

theorem Store.Fresh.not_isGivenUp {store : Store} (fresh : store.Fresh) (id : NodeId) :
    store.isGivenUp id = false := by
  cases found : store.content? id with
  | none => rw [isGivenUp, found, Option.any_none]
  | some content => exact isGivenUp_of_not_isMarked found (fresh found)

namespace Resolution

/-- All marks put since `base` have a reason. A marked reference stands at a place of which `At`
holds, and a marked declaration is one of which `Kept` holds. -/
structure Justified (At : Path → NodeId → Prop) (Kept : NodeId → Prop)
    (base current : Resolution) : Prop where
  advances : base.Advances current
  reference : ∀ {id content later}, base.store.content? id = some content →
    current.store.content? id = some later → content.isReference = true →
    content.isMarked = false → later.isMarked = true →
    ∃ path, At path id ∧ (current.judge (path.push id) id content).Answers content later
  declaration : ∀ {id content}, base.store.content? id = some content →
    content.isMarked = false → current.store.isResolved id = true →
    Kept id ∧ ∀ child ∈ content.children, current.store.Settled (current.failed = true) child

/-- Wherever a walk of the listed modules comes by, `At` holds, and `Kept` holds of the declarations
that it marks. -/
structure Route (At : Path → NodeId → Prop) (Kept : NodeId → Prop) (base : Resolution) :
    Prop where
  root : ∀ {id}, id ∈ base.modules → At .empty id
  below : ∀ {current path id content before stage after child},
    Justified At Kept base current → At path id →
    current.store.content? id = some content → content.stages = before ++ stage :: after →
    (∀ earlier ∈ before.flatten, current.store.Settled (current.failed = true) earlier) →
    child ∈ stage → At (path.push id) child
  keeps : ∀ {current path id content}, Justified At Kept base current → At path id →
    current.store.content? id = some content → content.kind.isDeclaration = true →
    (∀ child ∈ content.children, current.store.Settled (current.failed = true) child) → Kept id

/-- The steps of a walk keep a further property, where all marks have a reason. -/
structure Keeps (At : Path → NodeId → Prop) (Kept : NodeId → Prop) (base : Resolution)
    (Extra : Resolution → Prop) : Prop where
  missing : ∀ {path id current}, Justified At Kept base current → At path id → Extra current →
    current.store.content? id = none → Extra (current.reportFatal (unknownNode id))
  bind : ∀ {path id current content bound}, Justified At Kept base current → At path id →
    Extra current → current.store.content? id = some content → content.isReference = true →
    content.isMarked = false → current.judge (path.push id) id content = .bind bound →
    Extra (current.modify id fun _ => bound)
  wait : ∀ {path id current content reason}, Justified At Kept base current → At path id →
    Extra current → current.store.content? id = some content → content.isReference = true →
    content.isMarked = false → current.judge (path.push id) id content = .wait reason →
    Extra (current.defer id reason)
  reject : ∀ {path id current content report}, Justified At Kept base current → At path id →
    Extra current → current.store.content? id = some content → content.isReference = true →
    content.isMarked = false → current.judge (path.push id) id content = .reject report →
    Extra ((current.reportFatal report).modify id fun _ => content.givenUp)
  finish : ∀ {path id current content}, Justified At Kept base current → At path id →
    Extra current → current.store.content? id = some content →
    content.kind.isDeclaration = true → Extra (current.finish id)

theorem keeps_true (At : Path → NodeId → Prop) (Kept : NodeId → Prop) (base : Resolution) :
    Keeps At Kept base fun _ => True where
  missing _ _ _ _ := trivial
  bind _ _ _ _ _ _ _ := trivial
  wait _ _ _ _ _ _ _ := trivial
  reject _ _ _ _ _ _ _ := trivial
  finish _ _ _ _ _ := trivial

namespace Justified

variable {At : Path → NodeId → Prop} {Kept : NodeId → Prop} {base current next : Resolution}
  {path : Path} {id : NodeId} {content : Content}

theorem refl (base : Resolution) : Justified At Kept base base where
  advances := .refl base
  reference found again _ isOpen marked := by
    rw [found] at again
    cases again
    rw [isOpen] at marked
    cases marked
  declaration found isOpen resolved := by
    obtain ⟨other, foundOther, isResolved⟩ := Store.isResolved_iff.mp resolved
    rw [found] at foundOther
    cases foundOther
    rw [Content.isMarked_of_isResolved isResolved] at isOpen
    cases isOpen

/-- The reasons given so far stay good, so only the new marks need one. -/
theorem step (justified : Justified At Kept base current) (advances : current.Advances next)
    (references : ∀ {id content later}, current.store.content? id = some content →
      next.store.content? id = some later → content.isReference = true →
      content.isMarked = false → later.isMarked = true →
      ∃ path, At path id ∧ (next.judge (path.push id) id content).Answers content later)
    (declarations : ∀ {id content}, current.store.content? id = some content →
      content.isMarked = false → next.store.isResolved id = true →
      Kept id ∧ ∀ child ∈ content.children, next.store.Settled (next.failed = true) child) :
    Justified At Kept base next where
  advances := justified.advances.trans advances
  reference := by
    intro id content later found foundLater isReference isOpen marked
    obtain ⟨middle, foundMiddle, toMiddle⟩ := justified.advances.store.forward found
    -- either this step put the mark, or the reason given before is still good
    cases middleMarked : middle.isMarked with
    | false =>
      have same := toMiddle.eq_of_not_isMarked middleMarked
      subst same
      exact references foundMiddle foundLater isReference isOpen marked
    | true =>
      obtain ⟨path, place, answers⟩ :=
        justified.reference found foundMiddle isReference isOpen middleMarked
      obtain ⟨other, foundOther, toOther⟩ := advances.store.forward foundMiddle
      rw [foundLater] at foundOther
      cases foundOther
      rw [toOther.eq_of_isMarked middleMarked]
      rw [← advances.judge_eq answers.ne_wait] at answers
      exact ⟨path, place, answers⟩
  declaration := by
    intro id content found isOpen resolved
    obtain ⟨middle, foundMiddle, toMiddle⟩ := justified.advances.store.forward found
    cases middleMarked : middle.isMarked with
    | false =>
      have same := toMiddle.eq_of_not_isMarked middleMarked
      subst same
      exact declarations foundMiddle isOpen resolved
    | true =>
      have declares : middle.kind.isDeclaration = true := by
        obtain ⟨later, foundLater, isResolved⟩ := Store.isResolved_iff.mp resolved
        obtain ⟨other, foundOther, toOther⟩ := advances.store.forward foundMiddle
        rw [foundLater] at foundOther
        cases foundOther
        rw [← toOther.kind_eq]
        exact Content.isDeclaration_of_isResolved isResolved
      have resolvedMiddle : current.store.isResolved id = true :=
        Store.isResolved_iff.mpr
          ⟨middle, foundMiddle, Content.isResolved_of_isMarked declares middleMarked⟩
      obtain ⟨kept, settled⟩ := justified.declaration found isOpen resolvedMiddle
      exact ⟨kept, fun child held => (settled child held).mono advances.store advances.failed⟩

/-- What a settled node holds is settled, if the mark of the node is one of those with a reason. -/
theorem settled_below (justified : Justified At Kept base current) (fresh : base.store.Fresh)
    (settled : current.store.Settled (current.failed = true) id)
    (found : current.store.content? id = some content) {child : NodeId}
    (held : child ∈ content.children) : current.store.Settled (current.failed = true) child := by
  cases isMarked : content.isMarked with
  | false => exact (settled.children found isMarked).2 child held
  | true =>
    cases declares : content.kind.isDeclaration with
    | false =>
      -- only references are left, and they hold nothing
      cases content with
      | typeRef | nameRef | literal => cases held
      | module => cases isMarked
      | cover | enum | element | «variable» => cases declares
    | true =>
      have resolved : current.store.isResolved id = true :=
        Store.isResolved_iff.mpr ⟨content, found, Content.isResolved_of_isMarked declares isMarked⟩
      obtain ⟨given, foundGiven, step⟩ := justified.advances.store.backward found
      rw [step.children_eq] at held
      exact (justified.declaration foundGiven (fresh foundGiven) resolved).2 child held

/-- A step that leaves the store as it is puts no mark. -/
theorem neutral (justified : Justified At Kept base current) (advances : current.Advances next)
    (same : next.store = current.store) : Justified At Kept base next := by
  refine justified.step advances ?_ ?_
  · intro id content later found foundLater _ isOpen marked
    rw [same, found] at foundLater
    cases foundLater
    rw [isOpen] at marked
    cases marked
  · intro id content found isOpen resolved
    obtain ⟨other, foundOther, isResolved⟩ := Store.isResolved_iff.mp resolved
    rw [same, found] at foundOther
    cases foundOther
    rw [Content.isMarked_of_isResolved isResolved] at isOpen
    cases isOpen

/-- A step that puts a mark on one reference, as its judgement says. -/
theorem answer {later : Content} (justified : Justified At Kept base current)
    (advances : current.Advances next) (place : At path id)
    (stored : next.store = current.store.modify id fun _ => later)
    (found : current.store.content? id = some content) (isReference : content.isReference = true)
    (answers : (current.judge (path.push id) id content).Answers content later) :
    Justified At Kept base next := by
  refine justified.step advances ?_ ?_
  · intro other given after foundOther foundAfter _ isOpen marked
    rw [stored, Store.content?_modify] at foundAfter
    by_cases same : id = other
    · subst same
      rw [found] at foundOther
      cases foundOther
      rw [if_pos rfl, found] at foundAfter
      cases foundAfter
      rw [← advances.judge_eq answers.ne_wait] at answers
      exact ⟨path, place, answers⟩
    · rw [if_neg same, foundOther] at foundAfter
      cases foundAfter
      rw [isOpen] at marked
      cases marked
  · intro other given foundOther isOpen resolved
    obtain ⟨after, foundAfter, isResolved⟩ := Store.isResolved_iff.mp resolved
    obtain ⟨again, foundAgain, toAgain⟩ := advances.store.forward foundOther
    rw [foundAfter] at foundAgain
    cases foundAgain
    have declares := Content.isDeclaration_of_isResolved isResolved
    rw [stored, Store.content?_modify] at foundAfter
    by_cases same : id = other
    · -- a reference is no declaration
      subst same
      rw [found] at foundOther
      cases foundOther
      rw [toAgain.kind_eq, Content.not_isDeclaration_of_isReference isReference] at declares
      cases declares
    · rw [if_neg same, foundOther] at foundAfter
      cases foundAfter
      rw [Content.isMarked_of_isResolved isResolved] at isOpen
      cases isOpen

/-- A step that marks one declaration, all that it holds being settled. -/
theorem finish (justified : Justified At Kept base current) (kept : Kept id)
    (found : current.store.content? id = some content)
    (settled : ∀ child ∈ content.children, current.store.Settled (current.failed = true) child)
    (declares : content.kind.isDeclaration = true) :
    Justified At Kept base (current.finish id) := by
  have advances := advances_finish current id
  refine justified.step advances ?_ ?_
  · intro other given after foundOther foundAfter isReference isOpen marked
    change (current.store.modify id _).content? other = some after at foundAfter
    rw [Store.content?_modify] at foundAfter
    by_cases same : id = other
    · subst same
      rw [found] at foundOther
      cases foundOther
      rw [Content.not_isDeclaration_of_isReference isReference] at declares
      cases declares
    · rw [if_neg same, foundOther] at foundAfter
      cases foundAfter
      rw [isOpen] at marked
      cases marked
  · intro other given foundOther isOpen resolved
    obtain ⟨after, foundAfter, isResolved⟩ := Store.isResolved_iff.mp resolved
    change (current.store.modify id _).content? other = some after at foundAfter
    rw [Store.content?_modify] at foundAfter
    by_cases same : id = other
    · subst same
      rw [found] at foundOther
      cases foundOther
      exact ⟨kept, fun child held =>
        (settled child held).mono advances.store advances.failed⟩
    · rw [if_neg same, foundOther] at foundAfter
      cases foundAfter
      rw [Content.isMarked_of_isResolved isResolved] at isOpen
      cases isOpen

/-- The marks that a walk puts have a reason, and what its steps keep beside it keeps. -/
theorem walk_keeps {Extra : Resolution → Prop} {levels : Nat} {progress : Progress}
    {start final : Resolution} (route : Route At Kept base) (keeps : Keeps At Kept base Extra)
    (walked : Walks levels path id start progress final) (place : At path id)
    (justified : Justified At Kept base start) (extra : Extra start) :
    Justified At Kept base final ∧ Extra final := by
  refine walked.invariant (fun current => Justified At Kept base current ∧ Extra current) At
    (fun place holds => route.below holds.1 place) ?_ ?_ ?_ ?_ ?_ place ⟨justified, extra⟩
  · intro path id current place ⟨justified, extra⟩ found
    exact ⟨justified.neutral (advances_reportFatal _ _) rfl,
      keeps.missing justified place extra found⟩
  · intro path id current content bound place ⟨justified, extra⟩ found isReference isOpen judged
    have steps := advances_bind found isReference isOpen judged
    exact ⟨justified.answer steps place rfl found isReference (judged ▸ .bind),
      keeps.bind justified place extra found isReference isOpen judged⟩
  · intro path id current content reason place ⟨justified, extra⟩ found isReference isOpen judged
    exact ⟨justified.neutral (advances_defer _ _ _) rfl,
      keeps.wait justified place extra found isReference isOpen judged⟩
  · intro path id current content report place ⟨justified, extra⟩ found isReference isOpen judged
    have steps := advances_giveUp found isOpen report
    exact ⟨justified.answer steps place rfl found isReference (judged ▸ .reject),
      keeps.reject justified place extra found isReference isOpen judged⟩
  · intro path id current content place ⟨justified, extra⟩ found declares isOpen settled
    have kept := route.keeps justified place found declares settled
    exact ⟨justified.finish kept found settled declares,
      keeps.finish justified place extra found declares⟩

/-- So do those of a pass. -/
theorem pass_keeps {Extra : Resolution → Prop} (route : Route At Kept base)
    (keeps : Keeps At Kept base Extra) (acyclic : base.store.Acyclic)
    (justified : Justified At Kept base current) (extra : Extra current.opening) :
    Justified At Kept base current.pass.2 ∧ Extra current.pass.2 := by
  have visits := pass_visits (justified.advances.store.acyclic acyclic)
  rw [justified.advances.modules] at visits
  refine visits.invariant (fun current => Justified At Kept base current ∧ Extra current) ?_
    ⟨justified.neutral (advances_opening current) rfl, extra⟩
  intro id listed start progress final walked holds
  exact walk_keeps route keeps walked (route.root listed) holds.1 holds.2

theorem pass (route : Route At Kept base) (acyclic : base.store.Acyclic)
    (justified : Justified At Kept base current) : Justified At Kept base current.pass.2 :=
  (justified.pass_keeps route (keeps_true At Kept base) acyclic trivial).1

end Justified

end Resolution

end Declarations
