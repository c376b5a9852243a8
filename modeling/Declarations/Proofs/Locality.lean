import Declarations.Proofs.Deferral

/-!
# Walks stay below their node

A walk changes only nodes at and below the node at which it starts, and defers only such nodes. In a
forest the nodes below two siblings have nothing in common, and neither have the nodes below two
listed modules of which none is inside the other. So where a pass comes by no node twice, what one
walk leaves open no later walk of the pass touches.
-/

namespace Declarations

namespace Store

variable {store : Store} {first second id : NodeId}

/-- No node is at or below both. -/
def Apart (store : Store) (first second : NodeId) : Prop :=
  ∀ id, Relation.ReflTransGen store.Holds first id →
    ¬ Relation.ReflTransGen store.Holds second id

/-- No node is below itself, and none is held twice. -/
structure HoldsOnce (store : Store) : Prop where
  acyclic : store.Acyclic
  parent_unique : ∀ {parent other child}, store.Holds parent child → store.Holds other child →
    parent = other
  children_nodup : ∀ id, (store.children id).Nodup

theorem Advances.holdsOnce {first second : Store} (advances : first.Advances second)
    (once : first.HoldsOnce) : second.HoldsOnce where
  acyclic := advances.acyclic once.acyclic
  parent_unique held heldOther :=
    once.parent_unique (advances.holds_iff.mp held) (advances.holds_iff.mp heldOther)
  children_nodup id := by
    rw [advances.children_eq]
    exact once.children_nodup id

/-- Nodes that hold only nodes allocated before them, each of which one node holds once. -/
theorem holdsOnce_of_earlier
    (earlier : ∀ parent < store.size, ∀ child ∈ store.children ⟨parent⟩, child.index < parent)
    (single : ∀ parent < store.size, ∀ other < store.size,
      ∀ child ∈ store.children ⟨parent⟩, child ∈ store.children ⟨other⟩ → parent = other)
    (distinct : ∀ parent < store.size, (store.children ⟨parent⟩).Nodup) : store.HoldsOnce where
  acyclic := acyclic_of_earlier earlier
  parent_unique := (forest_of_earlier earlier single).parent_unique
  children_nodup id := by
    by_cases inside : id.index < store.size
    · exact distinct id.index inside
    · have missing : store.content? id = none := by
        rw [content?, (store.get?_eq_none_iff id).mpr (Nat.le_of_not_lt inside), Option.map_none]
      rw [children, missing]
      exact List.nodup_nil

/-- The ways up from a node are one way. -/
theorem HoldsOnce.comparable (once : store.HoldsOnce)
    (fromFirst : Relation.ReflTransGen store.Holds first id)
    (fromSecond : Relation.ReflTransGen store.Holds second id) :
    Relation.ReflTransGen store.Holds first second ∨
      Relation.ReflTransGen store.Holds second first := by
  have unique : Relator.RightUnique (Function.swap store.Holds) := by
    intro child parent other held heldOther
    exact once.parent_unique held heldOther
  have ups := Relation.ReflTransGen.total_of_right_unique unique
    (Relation.reflTransGen_swap.mpr fromFirst) (Relation.reflTransGen_swap.mpr fromSecond)
  rcases ups with up | down
  · exact Or.inr (Relation.reflTransGen_swap.mp up)
  · exact Or.inl (Relation.reflTransGen_swap.mp down)

/-- Nodes of which none is below the other are apart. -/
theorem HoldsOnce.apart (once : store.HoldsOnce) (different : first ≠ second)
    (notBelow : ¬ Relation.TransGen store.Holds first second)
    (notAbove : ¬ Relation.TransGen store.Holds second first) : store.Apart first second := by
  intro id fromFirst fromSecond
  rcases once.comparable fromFirst fromSecond with down | up
  · rcases Relation.reflTransGen_iff_eq_or_transGen.mp down with same | below
    · exact different same.symm
    · exact notBelow below
  · rcases Relation.reflTransGen_iff_eq_or_transGen.mp up with same | above
    · exact different same
    · exact notAbove above

/-- Two nodes that the same node holds are apart. -/
theorem HoldsOnce.apart_of_siblings (once : store.HoldsOnce) {parent : NodeId}
    (heldFirst : store.Holds parent first) (heldSecond : store.Holds parent second)
    (different : first ≠ second) : store.Apart first second := by
  have notBelow : ∀ {upper lower}, store.Holds parent upper → store.Holds parent lower →
      ¬ Relation.TransGen store.Holds upper lower := by
    intro upper lower heldUpper heldLower below
    -- the last step down comes from the parent, which would be below its own child
    obtain ⟨holder, down, held⟩ := Relation.TransGen.tail'_iff.mp below
    cases once.parent_unique held heldLower
    exact once.acyclic parent (Relation.TransGen.head' heldUpper down)
  exact once.apart different (notBelow heldFirst heldSecond) (notBelow heldSecond heldFirst)

/-- A node is a type reference or a name reference. -/
def Refers (store : Store) (id : NodeId) : Prop :=
  store.kind? id = some .typeRef ∨ store.kind? id = some .nameRef

theorem refers_of_isReference {content : Content} (found : store.content? id = some content)
    (isReference : content.isReference = true) : store.Refers id := by
  rw [Refers, kind?, found]
  cases content with
  | typeRef => exact Or.inl rfl
  | nameRef => exact Or.inr rfl
  | _ => cases isReference

theorem Advances.refers_iff {first second : Store} (advances : first.Advances second) :
    second.Refers id ↔ first.Refers id := by
  rw [Refers, Refers, advances.kind?_eq]

/-- A reference that is neither bound nor given up. -/
def IsOpen (store : Store) (id : NodeId) : Prop :=
  (∃ reference, store.typeRef? id = some reference ∧ reference.target = none ∧
    reference.failed = false) ∨
  ∃ reference, store.nameRef? id = some reference ∧ reference.target = none ∧
    reference.failed = false

theorem isOpen_iff : store.IsOpen id ↔ ∃ content, store.content? id = some content ∧
    content.isReference = true ∧ content.isMarked = false := by
  simp only [IsOpen, typeRef?_eq_some_iff, nameRef?_eq_some_iff]
  constructor
  · rintro (⟨reference, found, unbound, unfailed⟩ | ⟨reference, found, unbound, unfailed⟩)
    · refine ⟨.typeRef reference, found, rfl, ?_⟩
      simp [Content.isMarked, TypeReference.isSettled, unbound, unfailed]
    · refine ⟨.nameRef reference, found, rfl, ?_⟩
      simp [Content.isMarked, NameReference.isSettled, unbound, unfailed]
  · rintro ⟨content, found, isReference, isOpen⟩
    cases content with
    | typeRef reference =>
      simp only [Content.isMarked, TypeReference.isSettled, Bool.or_eq_false_iff,
        Option.isSome_eq_false_iff, Option.isNone_iff_eq_none] at isOpen
      exact Or.inl ⟨reference, found, isOpen⟩
    | nameRef reference =>
      simp only [Content.isMarked, NameReference.isSettled, Bool.or_eq_false_iff,
        Option.isSome_eq_false_iff, Option.isNone_iff_eq_none] at isOpen
      exact Or.inr ⟨reference, found, isOpen⟩
    | _ => cases isReference

theorem IsOpen.congr {other : Store} (isOpen : store.IsOpen id)
    (same : other.content? id = store.content? id) : other.IsOpen id := by
  rw [isOpen_iff, same]
  exact isOpen_iff.mp isOpen

end Store

namespace Resolution

variable {levels : Nat} {path : Path} {id : NodeId} {start final : Resolution}
  {progress : Progress}

/-- Only nodes of a set change, and only references of the set are deferred. -/
structure StaysWithin (nodes : Set NodeId) (first second : Resolution) : Prop where
  content : ∀ {id}, id ∉ nodes → second.store.content? id = first.store.content? id
  deferred : ∀ {id}, id ∈ second.deferred →
    id ∈ first.deferred ∨ (id ∈ nodes ∧ first.store.Refers id)

namespace StaysWithin

variable {nodes : Set NodeId} {first second : Resolution}

theorem refl (nodes : Set NodeId) (resolution : Resolution) :
    resolution.StaysWithin nodes resolution :=
  ⟨fun _ => rfl, fun member => Or.inl member⟩

/-- A step that changes one node of the set and defers nothing. -/
theorem modify {third : Resolution} (stays : first.StaysWithin nodes second)
    (inside : id ∈ nodes) (f : Content → Content) (stored : third.store = second.store.modify id f)
    (deferrals : third.deferrals = second.deferrals) : first.StaysWithin nodes third where
  content := by
    intro other outside
    have different : id ≠ other := fun same => outside (same ▸ inside)
    rw [stored, Store.content?_modify, if_neg different]
    exact stays.content outside
  deferred := by
    intro other member
    rw [Resolution.deferred, deferrals] at member
    exact stays.deferred member

end StaysWithin

/-- A walk stays at and below its node. -/
theorem Walks.staysWithin (walked : Walks levels path id start progress final) :
    start.StaysWithin {other | Relation.ReflTransGen start.store.Holds id other} final := by
  have kept := walked.invariant
    (fun current => start.Advances current ∧
      start.StaysWithin {other | Relation.ReflTransGen start.store.Holds id other} current)
    (fun _ other => Relation.ReflTransGen start.store.Holds id other)
    ?_ ?_ ?_ ?_ ?_ ?_ .refl ⟨.refl start, .refl _ start⟩
  · exact kept.2
  · intro path other current content before stage after child reached holds found split _ member
    have held : current.store.Holds other child :=
      Store.holds_iff.mpr ⟨content, found, Content.mem_children_of_stage split (Or.inr member)⟩
    exact reached.tail (holds.1.store.holds_iff.mp held)
  · intro path other current _ holds _
    exact ⟨holds.1.trans (advances_reportFatal _ _), holds.2.content, holds.2.deferred⟩
  · intro path other current content bound reached holds found isReference isOpen judged
    exact ⟨holds.1.trans (advances_bind found isReference isOpen judged),
      holds.2.modify reached (fun _ => bound) rfl rfl⟩
  · intro path other current content reason reached holds found isReference _ _
    refine ⟨holds.1.trans (advances_defer _ _ _), holds.2.content, ?_⟩
    intro node member
    rw [deferred_defer] at member
    split at member
    next => exact holds.2.deferred member
    next =>
      rcases List.mem_append.mp member with known | new
      · exact holds.2.deferred known
      · cases List.mem_singleton.mp new
        have refers := Store.refers_of_isReference found isReference
        exact Or.inr ⟨reached, holds.1.store.refers_iff.mp refers⟩
  · intro path other current content report reached holds found _ isOpen _
    exact ⟨holds.1.trans (advances_giveUp found isOpen report),
      holds.2.modify reached (fun _ => content.givenUp) rfl rfl⟩
  · intro path other current content reached holds _ _ _ _
    exact ⟨holds.1.trans (advances_finish _ _),
      holds.2.modify reached (Content.mapHeader Header.markResolved) rfl rfl⟩

/-! ## Passes that come by no node twice -/

/-- No node is held twice, and no listed module is listed again or inside another. -/
structure VisitsOnce (resolution : Resolution) : Prop where
  tree : resolution.store.HoldsOnce
  modules_nodup : resolution.modules.Nodup
  modules_apart : ∀ {id other}, id ∈ resolution.modules → other ∈ resolution.modules →
    ¬ Relation.TransGen resolution.store.Holds id other

theorem Advances.visitsOnce {first second : Resolution} (advances : first.Advances second)
    (once : first.VisitsOnce) : second.VisitsOnce where
  tree := advances.store.holdsOnce once.tree
  modules_nodup := by
    rw [advances.modules]
    exact once.modules_nodup
  modules_apart := by
    intro id other listed listedOther
    rw [advances.modules] at listed listedOther
    rw [advances.store.holds_eq]
    exact once.modules_apart listed listedOther

/-- All that is deferred is open. -/
def DefersOpen (resolution : Resolution) : Prop :=
  ∀ id ∈ resolution.deferred, resolution.store.IsOpen id

/-- Whatever was deferred elsewhere and is open stays open, and what is deferred meanwhile is open
too. -/
def KeepsOpen (base : Store) (id : NodeId) (start final : Resolution) : Prop :=
  base.Advances start.store → start.DefersOpen →
    (∀ node ∈ start.deferred, ¬ Relation.ReflTransGen base.Holds id node) → final.DefersOpen

/-- Stages are visited as the list of their nodes, up to some node. -/
theorem VisitsStages.exists_visitsAll {visits : NodeId → Visit} {stages : List (List NodeId)}
    (visited : VisitsStages visits stages start progress final) :
    ∃ ids, ids <+: stages.flatten ∧ VisitsAll visits ids start progress final := by
  cases progress with
  | done => exact ⟨stages.flatten, List.prefix_rfl, visited.flatten⟩
  | pending =>
    obtain ⟨before, stage, after, middle, split, allDone, pending⟩ := visited.exists_pending
    refine ⟨before.flatten ++ stage, ?_, allDone.append pending⟩
    rw [split, List.flatten_append, List.flatten_cons]
    exact ⟨after.flatten, List.append_assoc _ _ _⟩

/-- What is deferred stays open along the walks of nodes that are apart. -/
theorem VisitsAll.defersOpen {base : Store} {ids : List NodeId}
    (visited : VisitsAll (fun id start progress final =>
      ∃ _ : Walks levels path id start progress final, KeepsOpen base id start final)
      ids start progress final)
    (apart : ids.Pairwise base.Apart) (since : base.Advances start.store)
    (deferred : start.DefersOpen)
    (outside : ∀ id ∈ ids, ∀ node ∈ start.deferred, ¬ Relation.ReflTransGen base.Holds id node) :
    final.DefersOpen := by
  induction visited with
  | nil => exact deferred
  | @cons id rest start middle final first others visit tail ih =>
    obtain ⟨walked, keepsOpen⟩ := visit
    obtain ⟨apartHead, apartRest⟩ := List.pairwise_cons.mp apart
    have deferredMiddle := keepsOpen since deferred (outside id List.mem_cons_self)
    refine ih apartRest (since.trans walked.advances.store) deferredMiddle ?_
    -- what the first walk deferred stands below its node, apart from the others
    intro other member node known
    have stays := walked.staysWithin
    rw [since.holds_eq] at stays
    rcases stays.deferred known with old | ⟨below, -⟩
    · exact outside other (List.mem_cons_of_mem _ member) node old
    · exact apartHead other member node below

/-- What is deferred stays open along the stages of a node, if it does along the walks of the nodes
that it holds. -/
theorem VisitsStages.keepsOpen {base : Store} (once : base.HoldsOnce) {content : Content}
    (found : start.store.content? id = some content)
    (visited : VisitsStages (fun child start progress final =>
      ∃ _ : Walks levels path child start progress final, KeepsOpen base child start final)
      content.stages start progress final) :
    KeepsOpen base id start final := by
  intro since deferred outside
  have children : base.children id = content.children := by
    rw [← since.children_eq, Store.children, found]
    rfl
  obtain ⟨ids, initial, visits⟩ := visited.exists_visitsAll
  have held : ∀ child ∈ ids, base.Holds id child := by
    intro child member
    rw [Store.Holds, children]
    exact initial.subset member
  have apart : ids.Pairwise base.Apart := by
    have nodup : ids.Nodup := (children ▸ once.children_nodup id).sublist initial.sublist
    refine nodup.imp_of_mem ?_
    intro child other member memberOther different
    exact once.apart_of_siblings (held child member) (held other memberOther) different
  refine visits.defersOpen apart since deferred ?_
  intro child member node known reached
  exact outside node known (.head (held child member) reached)

/-- A walk leaves open what it defers, where no node is held twice. -/
theorem Walks.keepsOpen {base : Store} (once : base.HoldsOnce)
    (walked : Walks levels path id start progress final) : KeepsOpen base id start final := by
  induction walked using Walks.induction with
  | missing | marked => exact fun _ deferred _ => deferred
  | @bind levels path id start content bound found isReference isOpen judged
  | @reject levels path id start content report found isReference isOpen judged =>
    intro since deferred outside node member
    have different : id ≠ node := fun same => outside node member (same ▸ .refl)
    refine (deferred node member).congr ?_
    change (start.store.modify id _).content? node = _
    rw [Store.content?_modify, if_neg different]
  | @wait levels path id start content reason found isReference isOpen judged =>
    intro since deferred outside node member
    rw [deferred_defer] at member
    split at member
    next => exact deferred node member
    next =>
      rcases List.mem_append.mp member with known | new
      · exact deferred node known
      · cases List.mem_singleton.mp new
        exact Store.isOpen_iff.mpr ⟨content, found, isReference, isOpen⟩
  | @finish levels path id start final content found notReference isOpen visits stages =>
    intro since deferred outside node member
    have isOpen : final.store.IsOpen node :=
      stages.keepsOpen once found since deferred outside node member
    -- the node that is marked is no reference
    have different : id ≠ node := by
      intro same
      obtain ⟨reference, foundReference, isReference, -⟩ := Store.isOpen_iff.mp isOpen
      have toFinal := visits.advances fun _ _ _ _ _ walked => walked.advances
      obtain ⟨later, foundLater, step⟩ := toFinal.store.forward found
      rw [same, foundReference] at foundLater
      cases foundLater
      rw [step.isReference_eq, notReference] at isReference
      cases isReference
    refine isOpen.congr ?_
    change (final.store.modify id _).content? node = _
    rw [Store.content?_modify, if_neg different]
  | stop found _ _ _ stages => exact stages.keepsOpen once found

/-- A pass that comes by no node twice ends with what it deferred still open. -/
theorem pass_defersOpen {resolution : Resolution} (once : resolution.VisitsOnce) :
    resolution.pass.2.DefersOpen := by
  have apart : resolution.modules.Pairwise resolution.store.Apart := by
    refine once.modules_nodup.imp_of_mem ?_
    intro id other listed listedOther different
    exact once.tree.apart different (once.modules_apart listed listedOther)
      (once.modules_apart listedOther listed)
  have visits := (pass_visits once.tree.acyclic).imp fun id _ start progress final walked =>
    (⟨walked, walked.keepsOpen once.tree⟩ :
      ∃ _ : Walks _ .empty id start progress final, KeepsOpen resolution.store id start final)
  refine visits.defersOpen apart (advances_opening resolution).store (List.forall_mem_nil _) ?_
  intro id _
  exact List.forall_mem_nil _

end Resolution

end Declarations
