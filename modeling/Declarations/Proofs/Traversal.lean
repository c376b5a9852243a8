import Declarations.Proofs.Forest
import Declarations.Store.Traversal

/-!
# What a traversal comes by

A traversal comes by a node in a slot. If the slot admits the node, the node is entered and offers
the nodes in its own slots. `Meets` closes this up, and where no node is below itself the events of
a traversal enter exactly the nodes that are met in a slot which admits them.
-/

namespace Declarations

/-- What a traversal comes by in a node, the node holds. -/
theorem Content.mem_children_of_mem_slots {content : Content} {held : Slot × NodeId}
    (member : held ∈ content.slots) : held.2 ∈ content.children := by
  cases content with
  | module | cover | element =>
    obtain ⟨id, inside, rfl⟩ := List.mem_map.mp member
    rw [children, stages, List.flatten_singleton]
    exact inside
  | enum =>
    -- a traversal has the type of an enumeration before its members, a walk after them
    rw [children, stages, List.flatten_cons, List.flatten_singleton]
    rcases List.mem_append.mp member with underlying | ofMembers
    · obtain ⟨id, inside, rfl⟩ := List.mem_map.mp underlying
      exact List.mem_append_right _ inside
    · obtain ⟨id, inside, rfl⟩ := List.mem_map.mp ofMembers
      exact List.mem_append_left _ inside
  | «variable» =>
    rw [children, stages, List.flatten_cons, List.flatten_singleton]
    rcases List.mem_append.mp member with type | value
    · obtain ⟨id, inside, rfl⟩ := List.mem_map.mp type
      exact List.mem_append_left _ inside
    · obtain ⟨id, inside, rfl⟩ := List.mem_map.mp value
      exact List.mem_append_right _ inside
  | literal | typeRef | nameRef => cases member

namespace Store

variable {store : Store}

/-- What a traversal comes by in a node has fewer nodes at and below it. -/
theorem Acyclic.rank_lt_of_mem_slots (acyclic : store.Acyclic) {id : NodeId} {content : Content}
    (found : store.content? id = some content) {held : Slot × NodeId}
    (member : held ∈ content.slots) : store.rank held.2 < store.rank id :=
  acyclic.rank_lt (holds_iff.mpr ⟨content, found, Content.mem_children_of_mem_slots member⟩)

/-- A node that is met in a slot which admits it offers the nodes in its own slots. -/
def Offers (store : Store) (held next : Slot × NodeId) : Prop :=
  ∃ content, store.content? held.2 = some content ∧ held.1.admits content.kind = true ∧
    next ∈ content.slots

/-- What a traversal that starts at a node in a slot comes by. -/
def Meets (store : Store) : Slot × NodeId → Slot × NodeId → Prop :=
  Relation.ReflTransGen store.Offers

/-- What a traversal that starts at a node in a slot enters. -/
def Enters (store : Store) (held : Slot × NodeId) (kind : Kind) (id : NodeId) : Prop :=
  ∃ slot content, store.Meets held (slot, id) ∧ store.content? id = some content ∧
    slot.admits content.kind = true ∧ content.kind = kind

theorem Offers.holds {held next : Slot × NodeId} (offers : store.Offers held next) :
    store.Holds held.2 next.2 := by
  obtain ⟨content, found, -, member⟩ := offers
  exact holds_iff.mpr ⟨content, found, Content.mem_children_of_mem_slots member⟩

/-- A node is entered at the start or from a slot of the node at the start. -/
theorem enters_iff {slot : Slot} {id other : NodeId} {kind : Kind} :
    store.Enters (slot, id) kind other ↔
      ∃ content, store.content? id = some content ∧ slot.admits content.kind = true ∧
        ((kind = content.kind ∧ other = id) ∨
          ∃ held ∈ content.slots, store.Enters held kind other) := by
  constructor
  · rintro ⟨otherSlot, content, meets, found, admits, rfl⟩
    rcases Relation.ReflTransGen.cases_head meets with same | ⟨next, offers, rest⟩
    · cases same
      exact ⟨content, found, admits, Or.inl ⟨rfl, rfl⟩⟩
    · obtain ⟨above, foundAbove, admitsAbove, member⟩ := offers
      exact ⟨above, foundAbove, admitsAbove,
        Or.inr ⟨next, member, otherSlot, content, rest, found, admits, rfl⟩⟩
  · rintro ⟨content, found, admits, ⟨rfl, rfl⟩ | ⟨held, member, entered⟩⟩
    · exact ⟨slot, content, .refl, found, admits, rfl⟩
    · obtain ⟨otherSlot, below, meets, foundBelow, admitsBelow, sameKind⟩ := entered
      exact ⟨otherSlot, below, .head ⟨content, found, admits, member⟩ meets, foundBelow,
        admitsBelow, sameKind⟩

/-- A part of a traversal adds events, and those that it adds enter just the given nodes. -/
def Adds (part : Array Event → Option (Array Event)) (entered : Kind → NodeId → Prop) : Prop :=
  ∃ new : Array Event, (∀ events, part events = some (events ++ new)) ∧
    ∀ kind id, .enter kind id ∈ new ↔ entered kind id

/-- Parts that are made one after another add what each of them adds. -/
theorem adds_foldlM {slots : List (Slot × NodeId)}
    {part : Array Event → Slot × NodeId → Option (Array Event)}
    {entered : Slot × NodeId → Kind → NodeId → Prop}
    (each : ∀ held ∈ slots, Adds (fun events => part events held) (entered held)) :
    Adds (fun events => slots.foldlM part events)
      fun kind id => ∃ held ∈ slots, entered held kind id := by
  induction slots with
  | nil => exact ⟨#[], fun events => by simp, by simp⟩
  | cons held rest ih =>
    obtain ⟨first, addsFirst, entersFirst⟩ := each held List.mem_cons_self
    obtain ⟨others, addsOthers, entersOthers⟩ :=
      ih fun other member => each other (List.mem_cons_of_mem held member)
    refine ⟨first ++ others, ?_, ?_⟩
    · intro events
      dsimp only at addsFirst addsOthers ⊢
      rw [List.foldlM_cons, addsFirst, Option.bind_eq_bind, Option.bind_some, addsOthers,
        Array.append_assoc]
    · intro kind id
      rw [Array.mem_append, entersFirst, entersOthers]
      simp only [List.exists_mem_cons_iff]

/-- A traversal that may go deeper than its node has nodes below it adds what can be entered from
its slot. -/
theorem adds_traverseWithin (acyclic : store.Acyclic) {levels : Nat} {slot : Slot} {id : NodeId}
    (enough : store.rank id < levels) :
    Adds (store.traverseWithin (fun _ => true) levels slot id) (store.Enters (slot, id)) := by
  induction levels generalizing slot id with
  | zero => omega
  | succ levels ih =>
    cases found : store.content? id with
    | none =>
      refine ⟨#[], fun events => ?_, fun kind other => ?_⟩
      · rw [traverseWithin, found, Array.append_empty]
      · rw [enters_iff, found]
        simp
    | some content =>
      cases admits : slot.admits content.kind with
      | false =>
        refine ⟨#[], fun events => ?_, fun kind other => ?_⟩
        · simp [traverseWithin, found, admits]
        · rw [enters_iff, found]
          simp [admits]
      | true =>
        obtain ⟨new, addsNew, entersNew⟩ := adds_foldlM fun held member => by
          have lower := acyclic.rank_lt_of_mem_slots found member
          exact @ih held.1 held.2 (by omega)
        -- the node itself is entered first, and left at the end unless it is a leaf
        refine ⟨#[.enter content.kind id] ++ new ++
          (if content.kind.isLeaf then #[] else #[.leave id]), fun events => ?_,
          fun kind other => ?_⟩
        · have below := addsNew (events.push (.enter content.kind id))
          simp only [traverseWithin, found, admits, if_true, below]
          cases content.kind.isLeaf <;> simp
        · rw [enters_iff]
          cases content.kind.isLeaf <;> simp [found, admits, entersNew]

/-- The events at and below a node enter what the traversal meets in a slot that admits it. -/
theorem enter_mem_events_iff (acyclic : store.Acyclic) {root id : NodeId} {kind : Kind} :
    .enter kind id ∈ store.events root ↔ store.Enters (.child, root) kind id := by
  have enough : store.rank root < store.size + 1 := Nat.lt_succ_of_le (store.rank_le_size root)
  obtain ⟨new, adds, enters⟩ := @adds_traverseWithin store acyclic _ .child root enough
  rw [events, traverse, adds, Option.getD_some, Array.empty_append, Array.mem_toList_iff]
  exact enters kind id

end Store

end Declarations
