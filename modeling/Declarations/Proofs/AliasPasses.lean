import Declarations.Proofs.Pending

/-!
# How many passes aliases take

Where modules declare only covers, how long a resolution takes can be read off the order of the
declarations. A cover of a builtin type, or of none, is resolved in the first pass. A cover of
another cover is resolved in the same pass as that one if it comes after it, and one pass later if
it comes before it. `PassNumbers` states these rules; the main statement is that after so many
passes exactly the covers whose number is not greater are resolved, so that a run ends after as many
passes as the greatest number says.

The proof follows one pass from cover to cover. `Sweep` says what is resolved when the covers up to
some place have been visited.
-/

namespace Declarations.Resolution

/-- The declarations of the listed modules, in the order in which a pass comes by them. -/
def traversal (resolution : Resolution) : List NodeId :=
  resolution.modules.flatMap resolution.store.children

/-- The place of a declaration in this order. -/
def position (resolution : Resolution) (id : NodeId) : Nat := resolution.traversal.idxOf id

/-- The listed module that declares a node. -/
def owner? (resolution : Resolution) (id : NodeId) : Option NodeId :=
  resolution.modules.find? fun module => decide (id ∈ resolution.store.children module)

/-- What the name stands for that a cover of a listed module gives as its type. -/
def namedType? (resolution : Resolution) (cover : NodeId) : Option Symbol := do
  let module ← resolution.owner? cover
  let data ← resolution.store.cover? cover
  let type ← data.fromType
  let reference ← resolution.store.typeRef? type
  resolution.lookup (((Path.empty.push module).push cover).push type) reference.name

/-- A cover is an alias of another. -/
def IsAliasOf (resolution : Resolution) (cover target : NodeId) : Prop :=
  resolution.namedType? cover = some (.decl target)

instance (resolution : Resolution) (cover target : NodeId) :
    Decidable (resolution.IsAliasOf cover target) :=
  inferInstanceAs (Decidable (resolution.namedType? cover = some (.decl target)))

/-- Modules that declare covers only, each of no type, of a builtin type or of one another, without
a cycle. -/
structure AliasForest (resolution : Resolution) : Prop where
  fresh : resolution.store.Fresh
  forest : resolution.store.Forest
  listed : resolution.ListsModules
  modules_nodup : resolution.modules.Nodup
  /-- Every cover has one place. -/
  traversal_nodup : resolution.traversal.Nodup
  covers : ∀ cover ∈ resolution.traversal, ∃ data, resolution.store.cover? cover = some data ∧
    (data.fromType = none ∨ (∃ builtin, resolution.namedType? cover = some (.builtin builtin)) ∨
      ∃ target ∈ resolution.traversal, resolution.IsAliasOf cover target)
  acyclic : ∀ cover, ¬ Relation.TransGen resolution.IsAliasOf cover cover

/-- The pass in which a cover is resolved, given the passes in which the others are: the first if it
names no other, the same as for the one it names if that comes earlier, and the next after that if
it comes later. -/
def passFrom (resolution : Resolution) (number : NodeId → Nat) (cover : NodeId) : Nat :=
  match resolution.namedType? cover with
  | some (.decl target) =>
    if resolution.position target < resolution.position cover then number target
    else number target + 1
  | _ => 1

/-- The numbers of the covers follow the rule. -/
def PassNumbers (resolution : Resolution) (number : NodeId → Nat) : Prop :=
  ∀ cover ∈ resolution.traversal, number cover = resolution.passFrom number cover

instance (resolution : Resolution) (number : NodeId → Nat) :
    Decidable (resolution.PassNumbers number) :=
  inferInstanceAs (Decidable (∀ cover ∈ resolution.traversal, _))

/-- The greatest number of a cover, or one if there is none. -/
def lastPass (resolution : Resolution) (number : NodeId → Nat) : Nat :=
  (resolution.traversal.map number).foldr max 1

variable {resolution base : Resolution}

theorem mem_traversal {id : NodeId} : id ∈ resolution.traversal ↔
    ∃ module ∈ resolution.modules, resolution.store.Holds module id :=
  List.mem_flatMap

/-! ## Single walks -/

section Walks

variable {levels : Nat} {path : Path} {id : NodeId} {start final : Resolution}
  {progress : Progress} {content : Content}

theorem Walks.of_bind {bound : Content} (walked : Walks levels path id start progress final)
    (found : start.store.content? id = some content) (isReference : content.isReference = true)
    (isOpen : content.isMarked = false)
    (judged : start.judge (path.push id) id content = .bind bound) :
    progress = .done ∧ final = start.modify id fun _ => bound := by
  cases levels with
  | zero => cases walked
  | succ levels =>
    rw [Walks, Walks.bind found isReference isOpen judged] at walked
    cases walked
    exact ⟨rfl, rfl⟩

theorem Walks.of_wait {reason : String} (walked : Walks levels path id start progress final)
    (found : start.store.content? id = some content) (isReference : content.isReference = true)
    (isOpen : content.isMarked = false)
    (judged : start.judge (path.push id) id content = .wait reason) :
    progress = .pending ∧ final = start.defer id reason := by
  cases levels with
  | zero => cases walked
  | succ levels =>
    rw [Walks, Walks.wait found isReference isOpen judged] at walked
    cases walked
    exact ⟨rfl, rfl⟩

/-- The walk of a node with one stage visits the nodes of the stage, and finishes the node if none
of them stays open. -/
theorem Walks.of_stage {ids : List NodeId} (walked : Walks levels path id start progress final)
    (found : start.store.content? id = some content) (notReference : content.isReference = false)
    (isOpen : content.isMarked = false) (single : content.stages = [ids]) :
    ∃ lower after, VisitsAll (Walks lower (path.push id)) ids start progress after ∧
      (progress = .done → final = after.finish id) ∧ (progress = .pending → final = after) := by
  cases levels with
  | zero => cases walked
  | succ levels =>
    rw [Walks, entered found notReference isOpen, single] at walked
    obtain ⟨⟨reached, after⟩, resolved, ended⟩ := Option.map_eq_some_iff.mp walked
    have stages : VisitsStages (Walks levels (path.push id)) [ids] start reached after :=
      visitsStages_of_resolveStages resolved
    have visits : VisitsAll (Walks levels (path.push id)) ids start reached after := by
      cases stages with
      | done head tail =>
        cases tail
        exact head
      | pending head => exact head
    refine ⟨levels, after, ?_⟩
    cases reached with
    | done =>
      cases ended
      refine ⟨visits, fun _ => rfl, ?_⟩
      intro isPending
      cases isPending
    | pending =>
      cases ended
      refine ⟨visits, ?_, fun _ => rfl⟩
      intro isDone
      cases isDone

variable {data : Cover} {type : NodeId}

/-- A cover of no type is finished at once. -/
theorem Walks.of_cover_plain (walked : Walks levels path id start progress final)
    (found : start.store.content? id = some (.cover data))
    (isOpen : (Content.cover data).isMarked = false) (absent : data.fromType = none) :
    progress = .done ∧ final = start.finish id := by
  have single : (Content.cover data).stages = [[]] := by simp [Content.stages, absent]
  obtain ⟨lower, after, visits, done, -⟩ := walked.of_stage found rfl isOpen single
  cases visits
  exact ⟨rfl, done rfl⟩

/-- A cover of a type visits the reference to the type. -/
theorem Walks.of_cover_typed (walked : Walks levels path id start progress final)
    (found : start.store.content? id = some (.cover data))
    (isOpen : (Content.cover data).isMarked = false) (typed : data.fromType = some type) :
    ∃ lower after, Walks lower (path.push id) type start progress after ∧
      (progress = .done → final = after.finish id) ∧ (progress = .pending → final = after) := by
  have single : (Content.cover data).stages = [[type]] := by simp [Content.stages, typed]
  obtain ⟨lower, after, visits, ended⟩ := walked.of_stage found rfl isOpen single
  refine ⟨lower, after, ?_, ended⟩
  cases visits with
  | @cons _ _ _ middle _ first _ head tail =>
    cases tail
    cases first <;> exact head

/-- A declaration is resolved by a walk that is done. -/
theorem Walks.isResolved_of_done (walked : Walks levels path id start progress final)
    (found : start.store.content? id = some content)
    (declares : content.kind.isDeclaration = true) (isDone : progress = .done) :
    final.store.isResolved id = true := by
  obtain ⟨later, foundLater, step⟩ := walked.advances.store.forward found
  rw [← step.kind_eq] at declares
  have isMarked := (walked.settled isDone).isMarked foundLater
    (Content.isMarkable_of_isDeclaration declares)
  exact Store.isResolved_iff.mpr
    ⟨later, foundLater, Content.isResolved_of_isMarked declares isMarked⟩

end Walks

/-- A type reference is judged by what its name stands for. -/
theorem judgeType_of_builtin {path : Path} {span : Span} {name : Name} {builtin : Builtin}
    (known : resolution.lookup path name = some (.builtin builtin)) :
    resolution.judgeType path span name = .bind (.builtin builtin) := by
  simp [judgeType, known]

theorem judgeType_of_decl {path : Path} {span : Span} {name : Name} {decl : NodeId} {kind : Kind}
    (known : resolution.lookup path name = some (.decl decl))
    (found : resolution.store.kind? decl = some kind) (isType : kind.isTypeDecl = true) :
    resolution.judgeType path span name =
      if resolution.store.isResolved decl then .bind (.decl decl)
      else .wait (waitingOn (resolution.names.text name)) := by
  simp [judgeType, known, found, isType]

/-! ## What covers name -/

namespace AliasForest

variable {cover module type : NodeId} {data : Cover} {symbol : Symbol}

/-- The one module that holds a cover owns it. -/
theorem owner?_eq (aliases : base.AliasForest) (listed : module ∈ base.modules)
    (held : base.store.Holds module cover) : base.owner? cover = some module := by
  cases known : base.owner? cover with
  | none =>
    have unheld : cover ∉ base.store.children module := by
      simpa using List.find?_eq_none.mp known module listed
    exact absurd held unheld
  | some other =>
    have heldOther : cover ∈ base.store.children other := by simpa using List.find?_some known
    rw [aliases.forest.parent_unique heldOther held]

/-- What a cover names is looked up at the place of its type. -/
theorem lookup_eq (aliases : base.AliasForest) (names : base.namedType? cover = some symbol)
    (listed : module ∈ base.modules) (held : base.store.Holds module cover)
    (found : base.store.content? cover = some (.cover data)) :
    ∃ type reference, data.fromType = some type ∧
      base.store.content? type = some (.typeRef reference) ∧
      base.lookup (((Path.empty.push module).push cover).push type) reference.name =
        some symbol := by
  have known := Store.cover?_eq_some_iff.mpr found
  simp only [namedType?, aliases.owner?_eq listed held, known, Option.bind_eq_bind,
    Option.bind_some, Option.bind_eq_some_iff] at names
  obtain ⟨type, typed, reference, foundType, looked⟩ := names
  exact ⟨type, reference, typed, Store.typeRef?_eq_some_iff.mp foundType, looked⟩

/-- Only the declarations of listed modules name types. -/
theorem mem_of_names (names : base.namedType? cover = some symbol) : cover ∈ base.traversal := by
  simp only [namedType?, Option.bind_eq_bind, Option.bind_eq_some_iff] at names
  obtain ⟨module, owned, -⟩ := names
  have held : cover ∈ base.store.children module := by simpa using List.find?_some owned
  exact mem_traversal.mpr ⟨module, List.mem_of_find?_eq_some owned, held⟩

theorem namedType?_eq_none (found : base.store.cover? cover = some data)
    (absent : data.fromType = none) : base.namedType? cover = none := by
  rw [namedType?, found]
  cases base.owner? cover with
  | none => rfl
  | some module => simp [absent]

theorem target_mem (aliases : base.AliasForest) {target : NodeId}
    (aliasOf : base.IsAliasOf cover target) : target ∈ base.traversal := by
  obtain ⟨data, found, absent | ⟨builtin, names⟩ | ⟨other, member, again⟩⟩ :=
    aliases.covers cover (mem_of_names aliasOf)
  · rw [IsAliasOf, namedType?_eq_none found absent] at aliasOf
    cases aliasOf
  · rw [IsAliasOf, names] at aliasOf
    cases aliasOf
  · rw [IsAliasOf, again] at aliasOf
    cases aliasOf
    exact member

theorem position_ne (aliases : base.AliasForest) {target : NodeId}
    (aliasOf : base.IsAliasOf cover target) : base.position target ≠ base.position cover := by
  intro same
  have equal : target = cover := (List.idxOf_inj (aliases.target_mem aliasOf)).mp same
  subst equal
  exact aliases.acyclic target (.single aliasOf)

/-! ## Numbers -/

/-- The covers that a cover is an alias of in the end or on the way. -/
def below (resolution : Resolution) (cover : NodeId) : Set NodeId :=
  {other | Relation.TransGen resolution.IsAliasOf cover other}

theorem below_finite (aliases : base.AliasForest) (cover : NodeId) : (below base cover).Finite := by
  refine (List.finite_toSet base.traversal).subset ?_
  intro other reached
  obtain ⟨last, -, aliasOf⟩ := Relation.TransGen.tail'_iff.mp reached
  exact aliases.target_mem aliasOf

theorem wellFounded (aliases : base.AliasForest) : WellFounded (Function.swap base.IsAliasOf) := by
  refine Subrelation.wf ?_ (measure fun cover => (below base cover).ncard).wf
  intro target cover aliasOf
  refine Set.ncard_lt_ncard ⟨?_, ?_⟩ (aliases.below_finite cover)
  · intro other reached
    exact .head aliasOf reached
  · -- the target itself is not below itself
    intro back
    exact aliases.acyclic target (back (.single aliasOf))

theorem passFrom_of_alias (number : NodeId → Nat) {target : NodeId}
    (aliasOf : base.IsAliasOf cover target) :
    base.passFrom number cover =
      if base.position target < base.position cover then number target else number target + 1 := by
  have named : base.namedType? cover = some (.decl target) := aliasOf
  rw [passFrom, named]

/-- The number that the rule gives to a cover, by recursion along the aliases. -/
noncomputable def number (aliases : base.AliasForest) : NodeId → Nat :=
  aliases.wellFounded.fix fun cover number =>
    match aliasOf : base.namedType? cover with
    | some (.decl target) =>
      if base.position target < base.position cover then number target aliasOf
      else number target aliasOf + 1
    | _ => 1

/-- Numbers that follow the rule exist. -/
theorem passNumbers (aliases : base.AliasForest) : base.PassNumbers aliases.number := by
  intro cover _
  rw [number, WellFounded.fix_eq]
  split
  next target aliasOf => exact (passFrom_of_alias _ aliasOf).symm
  next unnamed =>
    rw [passFrom]
    split
    next target aliasOf => exact absurd aliasOf (unnamed target)
    next => rfl

end AliasForest

namespace PassNumbers

variable {number : NodeId → Nat} {cover target : NodeId}

theorem plain (numbers : base.PassNumbers number) (member : cover ∈ base.traversal) {data : Cover}
    (found : base.store.cover? cover = some data) (absent : data.fromType = none) :
    number cover = 1 := by
  rw [numbers cover member, passFrom, AliasForest.namedType?_eq_none found absent]

theorem builtin (numbers : base.PassNumbers number) {builtin : Builtin}
    (names : base.namedType? cover = some (.builtin builtin)) : number cover = 1 := by
  rw [numbers cover (AliasForest.mem_of_names names), passFrom, names]

theorem earlier (numbers : base.PassNumbers number) (aliasOf : base.IsAliasOf cover target)
    (before : base.position target < base.position cover) : number cover = number target := by
  rw [numbers cover (AliasForest.mem_of_names aliasOf), AliasForest.passFrom_of_alias _ aliasOf,
    if_pos before]

theorem later (numbers : base.PassNumbers number) (aliasOf : base.IsAliasOf cover target)
    (after : base.position cover < base.position target) : number cover = number target + 1 := by
  rw [numbers cover (AliasForest.mem_of_names aliasOf), AliasForest.passFrom_of_alias _ aliasOf,
    if_neg (Nat.not_lt.mpr (Nat.le_of_lt after))]

/-- There are numbers only where no cover is an alias of itself. -/
theorem not_cycle (numbers : base.PassNumbers number) (cover : NodeId) :
    ¬ Relation.TransGen base.IsAliasOf cover cover := by
  -- along aliases the number falls, or it stays and the place falls
  have lower : ∀ {cover target}, base.IsAliasOf cover target →
      number target * (base.traversal.length + 1) + base.position target <
        number cover * (base.traversal.length + 1) + base.position cover := by
    intro cover target aliasOf
    have inside : base.position target ≤ base.traversal.length := List.idxOf_le_length
    have rule := numbers cover (AliasForest.mem_of_names aliasOf)
    rw [AliasForest.passFrom_of_alias _ aliasOf] at rule
    split at rule
    next before =>
      rw [rule]
      omega
    next after =>
      rw [rule, Nat.succ_mul]
      omega
  have falls : ∀ {last}, Relation.TransGen base.IsAliasOf cover last →
      number last * (base.traversal.length + 1) + base.position last <
        number cover * (base.traversal.length + 1) + base.position cover := by
    intro last chain
    induction chain with
    | single aliasOf => exact lower aliasOf
    | tail _ aliasOf ih => exact (lower aliasOf).trans ih
  intro cycle
  exact Nat.lt_irrefl _ (falls cycle)

/-- No cover is resolved before the first pass. -/
theorem one_le (numbers : base.PassNumbers number) (aliases : base.AliasForest)
    (member : cover ∈ base.traversal) : 1 ≤ number cover := by
  induction cover using aliases.wellFounded.induction with
  | _ cover ih =>
    obtain ⟨data, found, absent | ⟨builtin, names⟩ | ⟨target, targetMember, aliasOf⟩⟩ :=
      aliases.covers cover member
    · rw [numbers.plain member found absent]
    · rw [numbers.builtin names]
    · have positive := ih target aliasOf targetMember
      rcases Nat.lt_or_gt_of_ne (aliases.position_ne aliasOf) with before | after
      · rw [numbers.earlier aliasOf before]
        exact positive
      · rw [numbers.later aliasOf after]
        omega

end PassNumbers

/-! ## One pass, from cover to cover -/

/-- What is resolved in a pass that follows so many others, when some covers have been visited. -/
structure Sweep (base : Resolution) (number : NodeId → Nat) (count : Nat) (visited : List NodeId)
    (current : Resolution) : Prop where
  advances : base.Advances current
  log : current.log = base.log
  failed : current.failed = base.failed
  resolved_iff : ∀ id, current.store.isResolved id = true ↔
    id ∈ base.traversal ∧ (number id ≤ count ∨ (id ∈ visited ∧ number id ≤ count + 1))
  /-- The type of a cover that is not resolved is open. -/
  untouched : ∀ {cover type}, cover ∈ base.traversal →
    current.store.isResolved cover = false → base.store.Holds cover type →
    current.store.content? type = base.store.content? type

/-- What has been visited stands before what is visited next. -/
theorem mem_visited_iff {visited : List NodeId} {cover target : NodeId}
    (nodup : base.traversal.Nodup) (next : visited ++ [cover] <+: base.traversal) :
    target ∈ visited ↔ base.position target < base.position cover := by
  obtain ⟨rest, split⟩ := next
  have fresh : cover ∉ visited := by
    rw [← split] at nodup
    have pair := (List.nodup_append.mp nodup).1
    rw [List.nodup_append] at pair
    intro member
    exact pair.2.2 cover member cover List.mem_cons_self rfl
  have place : base.position cover = visited.length := by
    rw [position, ← split, List.append_assoc, List.idxOf_append_of_notMem fresh]
    simp
  rw [place, position, ← split, List.append_assoc]
  constructor
  · intro member
    rw [List.idxOf_append_of_mem member]
    exact List.idxOf_lt_length_of_mem member
  · intro before
    by_contra absent
    rw [List.idxOf_append_of_notMem absent] at before
    omega

theorem not_isResolved_of_typeRef {store : Store} {id : NodeId}
    (known : store.kind? id = some .typeRef) : store.isResolved id = false := by
  cases resolved : store.isResolved id with
  | false => rfl
  | true =>
    obtain ⟨content, found, isResolved⟩ := Store.isResolved_iff.mp resolved
    have declares := Content.isDeclaration_of_isResolved isResolved
    rw [Store.kind?, found, Option.map_some, Option.some.injEq] at known
    rw [known] at declares
    cases declares

/-- A declaration that is not resolved has not changed. -/
theorem found_of_not_isResolved {first second : Store} {id : NodeId} {content : Content}
    (advances : first.Advances second) (found : first.content? id = some content)
    (declares : content.kind.isDeclaration = true) (unresolved : second.isResolved id = false) :
    second.content? id = some content ∧ content.isMarked = false := by
  obtain ⟨later, foundLater, step⟩ := advances.forward found
  have isOpen : later.isMarked = false := by
    cases isMarked : later.isMarked with
    | false => rfl
    | true =>
      rw [← step.kind_eq] at declares
      rw [Store.isResolved_iff.mpr
        ⟨later, foundLater, Content.isResolved_of_isMarked declares isMarked⟩] at unresolved
      cases unresolved
  have same := step.eq_of_not_isMarked isOpen
  subst same
  exact ⟨foundLater, isOpen⟩

theorem AliasForest.content_of_mem (aliases : base.AliasForest) {cover : NodeId}
    (member : cover ∈ base.traversal) :
    ∃ data, base.store.content? cover = some (.cover data) := by
  obtain ⟨data, found, -⟩ := aliases.covers cover member
  exact ⟨data, Store.cover?_eq_some_iff.mp found⟩

/-- What a cover holds is a type reference. -/
theorem AliasForest.content_of_holds (aliases : base.AliasForest) {cover type : NodeId}
    (member : cover ∈ base.traversal) (held : base.store.Holds cover type) :
    ∃ reference, base.store.content? type = some (.typeRef reference) := by
  obtain ⟨module, listed, heldCover⟩ := mem_traversal.mp member
  obtain ⟨data, known, names⟩ := aliases.covers cover member
  have found := Store.cover?_eq_some_iff.mp known
  have typed : data.fromType = some type := by
    obtain ⟨content, foundAgain, child⟩ := Store.holds_iff.mp held
    rw [found] at foundAgain
    cases foundAgain
    simpa [Content.children, Content.stages] using child
  obtain ⟨symbol, names⟩ : ∃ symbol, base.namedType? cover = some symbol := by
    rcases names with absent | ⟨builtin, names⟩ | ⟨target, -, aliasOf⟩
    · rw [typed] at absent
      cases absent
    · exact ⟨_, names⟩
    · exact ⟨_, aliasOf⟩
  obtain ⟨own, reference, ownTyped, foundType, -⟩ :=
    aliases.lookup_eq names listed heldCover found
  rw [typed] at ownTyped
  cases ownTyped
  exact ⟨reference, foundType⟩

namespace Sweep

variable {number : NodeId → Nat} {count levels : Nat} {visited : List NodeId}
  {start final : Resolution} {progress : Progress} {module cover type : NodeId}

/-- A step that leaves the nodes as they are, at a cover that was resolved before or is not to be
resolved in this pass. -/
theorem skip (sweep : base.Sweep number count visited start) (advances : start.Advances final)
    (same : final.store = start.store) (log : final.log = start.log)
    (failed : final.failed = start.failed)
    (decided : number cover ≤ count + 1 → start.store.isResolved cover = true) :
    base.Sweep number count (visited ++ [cover]) final where
  advances := sweep.advances.trans advances
  log := log.trans sweep.log
  failed := failed.trans sweep.failed
  resolved_iff := by
    intro id
    rw [same]
    constructor
    · intro resolved
      obtain ⟨member, early | ⟨seen, now⟩⟩ := (sweep.resolved_iff id).mp resolved
      · exact ⟨member, Or.inl early⟩
      · exact ⟨member, Or.inr ⟨List.mem_append_left _ seen, now⟩⟩
    · rintro ⟨member, early | ⟨seen, now⟩⟩
      · exact (sweep.resolved_iff id).mpr ⟨member, Or.inl early⟩
      · rcases List.mem_append.mp seen with before | own
        · exact (sweep.resolved_iff id).mpr ⟨member, Or.inr ⟨before, now⟩⟩
        · cases List.mem_singleton.mp own
          exact decided now
  untouched := by
    rw [same]
    exact sweep.untouched

/-- A step that resolves a cover and touches only it and its type. -/
theorem mark (aliases : base.AliasForest) (sweep : base.Sweep number count visited start)
    (advances : start.Advances final) (log : final.log = start.log)
    (failed : final.failed = start.failed) (member : cover ∈ base.traversal)
    (elsewhere : ∀ id, id ≠ cover → ¬ base.store.Holds cover id →
      final.store.content? id = start.store.content? id)
    (resolved : final.store.isResolved cover = true) (now : number cover ≤ count + 1) :
    base.Sweep number count (visited ++ [cover]) final where
  advances := sweep.advances.trans advances
  log := log.trans sweep.log
  failed := failed.trans sweep.failed
  resolved_iff := by
    intro id
    by_cases own : id = cover
    · subst own
      exact iff_of_true resolved ⟨member, Or.inr ⟨by simp, now⟩⟩
    · have same : final.store.isResolved id = start.store.isResolved id := by
        by_cases held : base.store.Holds cover id
        · -- a type reference is never resolved
          obtain ⟨reference, found⟩ := aliases.content_of_holds member held
          have known : base.store.kind? id = some .typeRef := by
            rw [Store.kind?, found]
            rfl
          have toStart := sweep.advances.store.kind?_eq id
          have toFinal := advances.store.kind?_eq id
          rw [not_isResolved_of_typeRef (toFinal.trans (toStart.trans known)),
            not_isResolved_of_typeRef (toStart.trans known)]
        · rw [Store.isResolved, Store.isResolved, elsewhere id own held]
      rw [same, sweep.resolved_iff]
      simp [own]
  untouched := by
    intro other type otherMember unresolved held
    have different : other ≠ cover := by
      intro same
      rw [same, resolved] at unresolved
      cases unresolved
    have unresolvedBefore : start.store.isResolved other = false := by
      cases before : start.store.isResolved other with
      | false => rfl
      | true =>
        rw [advances.store.isResolved_mono before] at unresolved
        cases unresolved
    rw [elsewhere type ?_ ?_]
    · exact sweep.untouched otherMember unresolvedBefore held
    · -- a type reference is no cover
      intro same
      obtain ⟨reference, found⟩ := aliases.content_of_holds otherMember held
      obtain ⟨data, foundCover⟩ := aliases.content_of_mem member
      rw [same, foundCover] at found
      cases found
    · intro heldByCover
      exact different (aliases.forest.parent_unique held heldByCover)

/-- Whether the cover that a cover names is resolved when the pass comes by it. -/
theorem isResolved_target_iff (sweep : base.Sweep number count visited start)
    (aliases : base.AliasForest) (numbers : base.PassNumbers number)
    (next : visited ++ [cover] <+: base.traversal) {target : NodeId}
    (aliasOf : base.IsAliasOf cover target) :
    start.store.isResolved target = true ↔ number cover ≤ count + 1 := by
  have member := aliases.target_mem aliasOf
  rw [sweep.resolved_iff target, mem_visited_iff aliases.traversal_nodup next]
  rcases Nat.lt_or_gt_of_ne (aliases.position_ne aliasOf) with before | after
  · have same := numbers.earlier aliasOf before
    constructor
    · rintro ⟨-, early | ⟨-, now⟩⟩ <;> omega
    · intro now
      exact ⟨member, Or.inr ⟨before, by omega⟩⟩
  · have more := numbers.later aliasOf after
    constructor
    · rintro ⟨-, early | ⟨seen, -⟩⟩ <;> omega
    · intro now
      exact ⟨member, Or.inl (by omega)⟩

/-- The visit of a cover that ends by resolving it. -/
theorem finish (sweep : base.Sweep number count visited start) (aliases : base.AliasForest)
    (member : cover ∈ base.traversal) {path : Path} {data : Cover} {after : Resolution}
    (walked : Walks levels path cover start .done final)
    (found : start.store.content? cover = some (.cover data)) (ended : final = after.finish cover)
    (log : after.log = start.log) (failed : after.failed = start.failed)
    (elsewhere : ∀ id, ¬ base.store.Holds cover id →
      after.store.content? id = start.store.content? id)
    (now : number cover ≤ count + 1) : base.Sweep number count (visited ++ [cover]) final := by
  have resolved := walked.isResolved_of_done found rfl rfl
  refine sweep.mark aliases walked.advances ?_ ?_ member ?_ resolved now
  · rw [ended]
    exact log
  · rw [ended]
    exact failed
  · intro id notCover notType
    rw [ended]
    change (after.store.modify cover _).content? id = _
    rw [Store.content?_modify, if_neg fun same => notCover same.symm]
    exact elsewhere id notType

/-- The type of a cover that is not resolved is open, and its name stands for what it did. -/
theorem open_type (sweep : base.Sweep number count visited start) (aliases : base.AliasForest)
    (listed : module ∈ base.modules) (held : base.store.Holds module cover) {data : Cover}
    (found : base.store.content? cover = some (.cover data))
    (unresolved : start.store.isResolved cover = false) {symbol : Symbol}
    (names : base.namedType? cover = some symbol) :
    ∃ type reference, data.fromType = some type ∧ base.store.Holds cover type ∧
      start.store.content? type = some (.typeRef reference) ∧
      (Content.typeRef reference).isMarked = false ∧
      start.lookup (((Path.empty.push module).push cover).push type) reference.name =
        some symbol := by
  obtain ⟨type, reference, typed, foundType, known⟩ :=
    aliases.lookup_eq names listed held found
  have heldType : base.store.Holds cover type := by
    refine Store.holds_iff.mpr ⟨_, found, ?_⟩
    simp [Content.children, Content.stages, typed]
  refine ⟨type, reference, typed, heldType, ?_, aliases.fresh foundType, ?_⟩
  · have member := mem_traversal.mpr ⟨module, listed, held⟩
    rw [sweep.untouched member unresolved heldType, foundType]
  · rw [sweep.advances.parallel.lookup_eq, known]

/-- The visit of a cover that names something: it is resolved if its type can be bound. -/
theorem visit_names (sweep : base.Sweep number count visited start) (aliases : base.AliasForest)
    (listed : module ∈ base.modules) (held : base.store.Holds module cover) {data : Cover}
    (found : base.store.content? cover = some (.cover data))
    (unresolved : start.store.isResolved cover = false) {symbol : Symbol}
    (names : base.namedType? cover = some symbol)
    (walked : Walks levels (Path.empty.push module) cover start progress final)
    (judged : ∀ {path span name}, start.lookup path name = some symbol →
      (number cover ≤ count + 1 → ∃ target, start.judgeType path span name = .bind target) ∧
      (¬ number cover ≤ count + 1 → ∃ reason, start.judgeType path span name = .wait reason)) :
    base.Sweep number count (visited ++ [cover]) final ∧
      (progress = .done ↔ number cover ≤ count + 1) := by
  obtain ⟨foundStart, isOpen⟩ :=
    found_of_not_isResolved sweep.advances.store found rfl unresolved
  have member := mem_traversal.mpr ⟨module, listed, held⟩
  obtain ⟨type, reference, typed, heldType, foundType, openType, known⟩ :=
    sweep.open_type aliases listed held found unresolved names
  obtain ⟨lower, after, below, done, pending⟩ := walked.of_cover_typed foundStart isOpen typed
  by_cases now : number cover ≤ count + 1
  · obtain ⟨target, verdict⟩ := (judged known).1 now
    have bound : start.judge (((Path.empty.push module).push cover).push type) type
        (.typeRef reference) = .bind (.typeRef { reference with target := some target }) := by
      rw [judge, verdict]
      rfl
    obtain ⟨rfl, rfl⟩ := below.of_bind foundType rfl openType bound
    refine ⟨sweep.finish aliases member walked foundStart (done rfl) rfl rfl ?_ now,
      iff_of_true rfl now⟩
    intro id notType
    have different : type ≠ id := fun same => notType (same ▸ heldType)
    change (start.store.modify type _).content? id = _
    rw [Store.content?_modify, if_neg different]
  · obtain ⟨reason, verdict⟩ := (judged known).2 now
    have waits : start.judge (((Path.empty.push module).push cover).push type) type
        (.typeRef reference) = .wait reason := by
      rw [judge, verdict]
      rfl
    obtain ⟨rfl, rfl⟩ := below.of_wait foundType rfl openType waits
    rw [pending rfl]
    refine ⟨sweep.skip (advances_defer _ _ _) rfl rfl rfl fun early => absurd early now,
      iff_of_false ?_ now⟩
    intro isDone
    cases isDone

/-- The visit of a cover resolves it if its number says so. -/
theorem visit (sweep : base.Sweep number count visited start) (aliases : base.AliasForest)
    (numbers : base.PassNumbers number) (listed : module ∈ base.modules)
    (held : base.store.Holds module cover) (next : visited ++ [cover] <+: base.traversal)
    (walked : Walks levels (Path.empty.push module) cover start progress final) :
    base.Sweep number count (visited ++ [cover]) final ∧
      (progress = .done ↔ number cover ≤ count + 1) := by
  have member : cover ∈ base.traversal := mem_traversal.mpr ⟨module, listed, held⟩
  cases resolved : start.store.isResolved cover with
  | true =>
    -- it was resolved in an earlier pass
    obtain ⟨content, found, isResolved⟩ := Store.isResolved_iff.mp resolved
    obtain ⟨rfl, rfl⟩ :=
      walked.unchanged (.marked found (Content.isMarked_of_isResolved isResolved))
    refine ⟨sweep.skip (.refl final) rfl rfl rfl fun _ => resolved, iff_of_true rfl ?_⟩
    obtain ⟨-, early | ⟨-, now⟩⟩ := (sweep.resolved_iff cover).mp resolved <;> omega
  | false =>
    obtain ⟨data, known, absent | ⟨builtin, names⟩ | ⟨target, targetMember, aliasOf⟩⟩ :=
      aliases.covers cover member
    · have found := Store.cover?_eq_some_iff.mp known
      obtain ⟨foundStart, isOpen⟩ :=
        found_of_not_isResolved sweep.advances.store found rfl resolved
      have one := numbers.plain member known absent
      obtain ⟨rfl, ended⟩ := walked.of_cover_plain foundStart isOpen absent
      refine ⟨sweep.finish aliases member walked foundStart ended rfl rfl (fun _ _ => rfl) ?_,
        iff_of_true rfl ?_⟩ <;> omega
    · have one := numbers.builtin names
      refine sweep.visit_names aliases listed held (Store.cover?_eq_some_iff.mp known) resolved
        names walked ?_
      intro path span name found
      refine ⟨fun _ => ⟨_, judgeType_of_builtin found⟩, ?_⟩
      intro late
      omega
    · have iff := sweep.isResolved_target_iff aliases numbers next aliasOf
      obtain ⟨other, foundTarget⟩ := aliases.content_of_mem targetMember
      have kind : start.store.kind? target = some .cover := by
        rw [sweep.advances.store.kind?_eq, Store.kind?, foundTarget]
        rfl
      refine sweep.visit_names aliases listed held (Store.cover?_eq_some_iff.mp known) resolved
        aliasOf walked ?_
      intro path span name found
      rw [judgeType_of_decl found kind rfl]
      constructor
      · intro now
        exact ⟨_, if_pos (iff.mpr now)⟩
      · intro late
        exact ⟨_, if_neg fun early => late (iff.mp early)⟩

/-- Visits that take a sweep over a part of the covers take it over all of them. -/
theorem visitsAll {visits : NodeId → Visit} (part : NodeId → List NodeId) {ids : List NodeId}
    (each : ∀ id ∈ ids, ∀ visited start progress final, visits id start progress final →
      base.Sweep number count visited start → visited ++ part id <+: base.traversal →
      base.Sweep number count (visited ++ part id) final ∧
        (progress = .done ↔ ∀ cover ∈ part id, number cover ≤ count + 1))
    (visitsIds : VisitsAll visits ids start progress final)
    (sweep : base.Sweep number count visited start)
    (next : visited ++ ids.flatMap part <+: base.traversal) :
    base.Sweep number count (visited ++ ids.flatMap part) final ∧
      (progress = .done ↔ ∀ cover ∈ ids.flatMap part, number cover ≤ count + 1) := by
  induction visitsIds generalizing visited with
  | nil =>
    rw [List.flatMap_nil, List.append_nil]
    exact ⟨sweep, iff_of_true rfl (List.forall_mem_nil _)⟩
  | @cons id rest start middle final first others head tail ih =>
    rw [List.flatMap_cons, ← List.append_assoc] at next ⊢
    have nextHead : visited ++ part id <+: base.traversal := (List.prefix_append _ _).trans next
    obtain ⟨sweepMiddle, firstDone⟩ := each id List.mem_cons_self _ _ _ _ head sweep nextHead
    obtain ⟨sweepFinal, othersDone⟩ :=
      ih (fun other member => each other (List.mem_cons_of_mem _ member)) sweepMiddle next
    refine ⟨sweepFinal, ?_⟩
    rw [Progress.and_eq_done, firstDone, othersDone, List.forall_mem_append]

/-- The walk of a module visits its covers. -/
theorem visit_module (sweep : base.Sweep number count visited start) (aliases : base.AliasForest)
    (numbers : base.PassNumbers number) (listed : module ∈ base.modules)
    (next : visited ++ base.store.children module <+: base.traversal)
    (walked : Walks levels .empty module start progress final) :
    base.Sweep number count (visited ++ base.store.children module) final ∧
      (progress = .done ↔ ∀ cover ∈ base.store.children module, number cover ≤ count + 1) := by
  obtain ⟨scope, known⟩ := Option.isSome_iff_exists.mp (aliases.listed module listed)
  have found := Store.module?_eq_some_iff.mp known
  obtain ⟨content, foundStart, step⟩ := sweep.advances.store.forward found
  have unmarkable : content.isMarkable = false := step.isMarkable_eq
  have single : content.stages = [base.store.children module] := by
    rw [step.stages_eq, Store.children, found]
    simp [Content.stages, Content.children]
  obtain ⟨lower, after, visits, done, pending⟩ := walked.of_stage foundStart step.isReference_eq
    (Content.not_isMarked_of_not_isMarkable unmarkable) single
  -- a module bears no mark, so finishing it changes nothing
  have same : final = after := by
    cases progress with
    | pending => exact pending rfl
    | done =>
      have toAfter := visits.advances fun _ _ _ _ _ walked => walked.advances
      obtain ⟨later, foundLater, stepLater⟩ := toAfter.store.forward foundStart
      rw [done rfl]
      exact finish_eq_self foundLater (Or.inr (stepLater.isMarkable_eq.trans unmarkable))
  rw [same]
  have covers : (base.store.children module).flatMap (fun cover => [cover]) =
      base.store.children module := List.flatMap_singleton' _
  have swept := sweep.visitsAll (fun cover => [cover]) ?_ visits (covers.symm ▸ next)
  · rw [covers] at swept
    exact swept
  · intro cover held visited start progress final walked sweep next
    rw [List.forall_mem_singleton]
    exact sweep.visit aliases numbers listed held next walked

/-- A pass takes the sweep over all covers. -/
theorem pass {current : Resolution} (sweep : base.Sweep number count [] current)
    (aliases : base.AliasForest) (numbers : base.PassNumbers number) :
    base.Sweep number (count + 1) [] current.pass.2 ∧
      (current.pass.1 = .done ↔ ∀ cover ∈ base.traversal, number cover ≤ count + 1) := by
  have opened : base.Sweep number count [] current.opening :=
    ⟨sweep.advances.trans (advances_opening current), sweep.log, sweep.failed,
      sweep.resolved_iff, sweep.untouched⟩
  have visits := pass_visits (sweep.advances.store.acyclic aliases.forest.acyclic)
  rw [sweep.advances.modules] at visits
  obtain ⟨swept, isDone⟩ := opened.visitsAll base.store.children
    (fun module listed _ _ _ _ walked sweep next =>
      sweep.visit_module aliases numbers listed next walked) visits List.prefix_rfl
  refine ⟨⟨swept.advances, swept.log, swept.failed, ?_, swept.untouched⟩, isDone⟩
  intro id
  rw [swept.resolved_iff id, List.nil_append]
  constructor
  · rintro ⟨member, early | ⟨-, now⟩⟩
    · exact ⟨member, Or.inl (by omega)⟩
    · exact ⟨member, Or.inl now⟩
  · rintro ⟨member, now | ⟨seen, -⟩⟩
    · exact ⟨member, Or.inr ⟨member, now⟩⟩
    · cases seen

/-- After so many passes the covers are resolved whose numbers are not greater. -/
theorem afterPasses (aliases : base.AliasForest) (numbers : base.PassNumbers number)
    (count : Nat) : base.Sweep number count [] (base.afterPasses count) := by
  induction count with
  | zero =>
    refine ⟨.refl base, rfl, rfl, ?_, fun _ _ _ => rfl⟩
    intro id
    constructor
    · intro resolved
      obtain ⟨content, found, isResolved⟩ := Store.isResolved_iff.mp resolved
      rw [afterPasses_zero] at found
      have isOpen := aliases.fresh found
      rw [Content.isMarked_of_isResolved isResolved] at isOpen
      cases isOpen
    · rintro ⟨member, none | ⟨seen, -⟩⟩
      · have positive := numbers.one_le aliases member
        omega
      · cases seen
  | succ count ih =>
    rw [afterPasses_succ]
    exact (ih.pass aliases numbers).1

end Sweep

/-! ## Runs -/

/-- Passes stop at the first that is done. -/
theorem passesWithin_eq {earlier count : Nat}
    (pending : ∀ before < earlier, (resolution.afterPasses before).pass.1 = .pending)
    (isDone : (resolution.afterPasses earlier).pass.1 = .done) (enough : earlier < count) :
    passesWithin count resolution = (resolution.afterPasses earlier).pass := by
  induction earlier generalizing resolution count with
  | zero =>
    obtain ⟨count, rfl⟩ := Nat.exists_eq_succ_of_ne_zero (Nat.ne_of_gt enough)
    have whole : resolution.pass = (.done, resolution.pass.2) := Prod.ext isDone rfl
    rw [afterPasses_zero, passesWithin, whole]
  | succ earlier ih =>
    obtain ⟨count, rfl⟩ := Nat.exists_eq_succ_of_ne_zero (Nat.ne_of_gt (Nat.zero_lt_of_lt enough))
    have first := pending 0 (Nat.succ_pos earlier)
    have again := @ih resolution.pass.2 count
      (fun before less => pending (before + 1) (Nat.succ_lt_succ less)) isDone
      (Nat.lt_of_succ_lt_succ enough)
    have whole : resolution.pass = (.pending, resolution.pass.2) := Prod.ext first rfl
    rw [passesWithin, whole]
    exact again

theorem lastPass_le_iff {number : NodeId → Nat} {bound : Nat} (positive : 1 ≤ bound) :
    resolution.lastPass number ≤ bound ↔ ∀ cover ∈ resolution.traversal, number cover ≤ bound := by
  rw [lastPass]
  induction resolution.traversal with
  | nil => simpa using positive
  | cons cover rest ih => simp [ih]

theorem one_le_lastPass (resolution : Resolution) (number : NodeId → Nat) :
    1 ≤ resolution.lastPass number := by
  rw [lastPass]
  induction resolution.traversal with
  | nil => simp
  | cons cover rest ih => simp [ih]

/-- A run ends after as many passes as the greatest number says, with nothing to report. -/
theorem AliasForest.run_eq (aliases : base.AliasForest) {number : NodeId → Nat}
    (numbers : base.PassNumbers number) (enough : base.lastPass number ≤ base.budget.maxPasses)
    (unfailed : base.failed = false) :
    base.run.1 = ⟨base.passes + base.lastPass number, .resolved⟩ ∧ base.run.2.log = base.log := by
  have positive := one_le_lastPass base number
  obtain ⟨earlier, total⟩ : ∃ earlier, base.lastPass number = earlier + 1 :=
    ⟨base.lastPass number - 1, by omega⟩
  have done_iff : ∀ count, (base.afterPasses count).pass.1 = .done ↔ earlier ≤ count := by
    intro count
    rw [((Sweep.afterPasses aliases numbers count).pass aliases numbers).2,
      ← lastPass_le_iff (Nat.succ_pos count), total]
    omega
  have pending : ∀ before < earlier, (base.afterPasses before).pass.1 = .pending := by
    intro before less
    cases progress : (base.afterPasses before).pass.1 with
    | pending => rfl
    | done =>
      have reached := (done_iff before).mp progress
      omega
  have isDone := (done_iff earlier).mpr (Nat.le_refl earlier)
  have passes : base.passesOfRun = (.done, (base.afterPasses earlier).pass.2) := by
    rw [passesOfRun, passesWithin_eq pending isDone (by omega), ← isDone]
  have sweep := (Sweep.afterPasses aliases numbers earlier).pass aliases numbers
  have advances := advances_afterPasses aliases.forest.acyclic earlier
  rw [Resolution.run_eq passes]
  dsimp only [conclude]
  refine ⟨?_, sweep.1.log⟩
  rw [pass_passes (advances.store.acyclic aliases.forest.acyclic),
    passes_afterPasses aliases.forest.acyclic, status, sweep.1.failed, unfailed, total,
    Nat.add_assoc]
  rfl

/-- Aliases take as many passes as their order asks for. After so many passes exactly the covers are
resolved whose numbers are not greater, and a run that may make as many passes as the greatest
number says ends after that many with all resolved and nothing reported. -/
theorem alias_passes {store : Store} {names : NameTable} {modules : List NodeId}
    (new : resolution = ofModules store names modules) (aliases : resolution.AliasForest) :
    (∃ number, resolution.PassNumbers number) ∧
    ∀ number, resolution.PassNumbers number →
      (∀ count id, (resolution.afterPasses count).store.isResolved id = true ↔
        id ∈ resolution.traversal ∧ number id ≤ count) ∧
      ∀ budget, resolution.lastPass number ≤ budget.maxPasses →
        (resolution.withBudget budget).run.1 = ⟨resolution.lastPass number, .resolved⟩ ∧
          (resolution.withBudget budget).run.2.log.diagnostics = [] := by
  refine ⟨⟨aliases.number, aliases.passNumbers⟩, ?_⟩
  intro number numbers
  constructor
  · intro count id
    rw [(Sweep.afterPasses aliases numbers count).resolved_iff id]
    simp
  · intro budget enough
    have budgeted : (resolution.withBudget budget).AliasForest :=
      ⟨aliases.fresh, aliases.forest, aliases.listed, aliases.modules_nodup,
        aliases.traversal_nodup, aliases.covers, aliases.acyclic⟩
    have numbered : (resolution.withBudget budget).PassNumbers number := numbers
    have ended := budgeted.run_eq numbered enough
    subst new
    obtain ⟨outcome, log⟩ := ended rfl
    refine ⟨?_, ?_⟩
    · rw [outcome]
      exact congrArg (fun passes => (⟨passes, .resolved⟩ : Outcome)) (Nat.zero_add _)
    · rw [log]
      rfl

/-- Two modules that import each other, with covers that name one another within a module and
across, before and behind. -/
def crossed : Resolution :=
  ofModules
    ⟨#[⟨.typeRef { name := ⟨5⟩ }, ⟨11, 14⟩⟩,
      ⟨.cover { header := { name := ⟨1⟩ }, fromType := some ⟨0⟩ }, ⟨0, 14⟩⟩,
      ⟨.typeRef { name := ⟨3⟩ }, ⟨25, 30⟩⟩,
      ⟨.cover { header := { name := ⟨2⟩ }, fromType := some ⟨2⟩ }, ⟨15, 30⟩⟩,
      ⟨.typeRef { name := ⟨6⟩ }, ⟨43, 46⟩⟩,
      ⟨.cover { header := { name := ⟨3⟩ }, fromType := some ⟨4⟩ }, ⟨31, 46⟩⟩,
      ⟨.cover { header := { name := ⟨4⟩ } }, ⟨47, 57⟩⟩,
      ⟨.module
        { name := ⟨7⟩
          declarations := [⟨1⟩, ⟨3⟩, ⟨5⟩, ⟨6⟩]
          imports := [⟨8⟩]
          symbols := [(⟨1⟩, ⟨1⟩), (⟨2⟩, ⟨3⟩), (⟨3⟩, ⟨5⟩), (⟨4⟩, ⟨6⟩)] }, ⟨0, 57⟩⟩,
      ⟨.typeRef { name := ⟨2⟩ }, ⟨68, 71⟩⟩,
      ⟨.cover { header := { name := ⟨5⟩ }, fromType := some ⟨8⟩ }, ⟨58, 71⟩⟩,
      ⟨.module
        { name := ⟨8⟩, declarations := [⟨9⟩], imports := [⟨7⟩], symbols := [(⟨5⟩, ⟨9⟩)] },
        ⟨58, 71⟩⟩]⟩
    (.ofTexts ["Near", "Age", "Count", "Unit", "Far", "Int", "main", "lib"]) [⟨7⟩, ⟨10⟩]

/-- The numbers of these covers. The first waits for the last, which comes right after the second in
the pass that resolves it. -/
def crossedNumber (id : NodeId) : Nat :=
  if id = ⟨1⟩ then 3 else if id = ⟨3⟩ ∨ id = ⟨9⟩ then 2 else 1

theorem mem_traversal_crossed {cover : NodeId} (member : cover ∈ crossed.traversal) :
    cover = ⟨1⟩ ∨ cover = ⟨3⟩ ∨ cover = ⟨5⟩ ∨ cover = ⟨6⟩ ∨ cover = ⟨9⟩ := by
  have listed : crossed.traversal = [⟨1⟩, ⟨3⟩, ⟨5⟩, ⟨6⟩, ⟨9⟩] := by decide
  rw [listed] at member
  simpa using member

theorem passNumbers_crossed : crossed.PassNumbers crossedNumber := by decide

theorem aliasForest_crossed : crossed.AliasForest where
  fresh := by decide
  forest := Store.forest_of_earlier (by decide) (by decide)
  listed := by decide
  modules_nodup := by decide
  traversal_nodup := by decide
  covers := by
    intro cover member
    rcases mem_traversal_crossed member with rfl | rfl | rfl | rfl | rfl
    · exact ⟨_, rfl, Or.inr (Or.inr ⟨⟨9⟩, by decide, by decide⟩)⟩
    · exact ⟨_, rfl, Or.inr (Or.inr ⟨⟨5⟩, by decide, by decide⟩)⟩
    · exact ⟨_, rfl, Or.inr (Or.inl ⟨.int, by decide⟩)⟩
    · exact ⟨_, rfl, Or.inl rfl⟩
    · exact ⟨_, rfl, Or.inr (Or.inr ⟨⟨3⟩, by decide, by decide⟩)⟩
  acyclic := passNumbers_crossed.not_cycle

theorem alias_passes_crossed :
    crossed.traversal.map crossedNumber = [3, 2, 1, 1, 2] ∧
    (∀ count id, (crossed.afterPasses count).store.isResolved id = true ↔
      id ∈ crossed.traversal ∧ crossedNumber id ≤ count) ∧
    (crossed.withBudget ⟨3⟩).run.1 = ⟨3, .resolved⟩ ∧
    (crossed.withBudget ⟨3⟩).run.2.log.diagnostics = [] := by
  have new : crossed = ofModules crossed.store crossed.names crossed.modules := rfl
  obtain ⟨resolved, ended⟩ :=
    (alias_passes new aliasForest_crossed).2 crossedNumber passNumbers_crossed
  have last : crossed.lastPass crossedNumber = 3 := by decide
  obtain ⟨outcome, silent⟩ := ended ⟨3⟩ (Nat.le_of_eq last)
  rw [last] at outcome
  exact ⟨by decide, resolved, outcome, silent⟩

end Declarations.Resolution
