import Declarations.Node.Members

/-!
# The index of the members

Members are kept twice: as a list in order of entry, and as an index from names to positions. The
two agree if the index maps the names that occur in the list, and only these, each to the one
position at which it occurs. They agree at the start, entering a new name keeps them in step, and
as long as they agree, looking a name up is the same as searching the list.

So whatever is inserted, with names in use among it, the list holds the first insertion under each
name, in the order of the insertions, and a name in use is answered with what it was first inserted
for.
-/

namespace Declarations

namespace Members

variable {members : Members} {name other : Name} {id : NodeId}

/-- The names of the members, in order of entry. -/
def names (members : Members) : List Name := members.toList.map Prod.fst

/-- The members with one more at the end. -/
def enter (members : Members) (name : Name) (id : NodeId) : Members :=
  ⟨members.order.push (name, id), members.index.insert name.raw members.size⟩

/-- The index gives the position of a name exactly if the name stands there. -/
structure Consistent (members : Members) : Prop where
  position_iff : ∀ (name : Name) (position : Nat),
    members.position? name = some position ↔ ∃ id, members.order[position]? = some (name, id)

theorem mem_toList_iff {entry : Name × NodeId} :
    entry ∈ members.toList ↔ ∃ position : Nat, members.order[position]? = some entry := by
  rw [toList, List.mem_iff_getElem?]
  simp

theorem mem_names_iff : name ∈ members.names ↔ ∃ id, (name, id) ∈ members.toList := by
  simp [names]

@[simp] theorem toList_enter (members : Members) (name : Name) (id : NodeId) :
    (members.enter name id).toList = members.toList ++ [(name, id)] := by
  simp [enter, toList]

@[simp] theorem ids_enter (members : Members) (name : Name) (id : NodeId) :
    (members.enter name id).ids = members.ids ++ [id] := by
  simp [ids]

theorem isEmpty_eq (members : Members) : members.isEmpty = members.toList.isEmpty := by
  simp [isEmpty, toList]

@[simp] theorem isEmpty_enter (members : Members) (name : Name) (id : NodeId) :
    (members.enter name id).isEmpty = false := by
  simp [isEmpty_eq]

theorem insert_of_unused (unused : members.get? name = none) :
    members.insert name id = .ok (members.enter name id) := by
  rw [insert, unused]
  rfl

theorem position?_enter (members : Members) (name other : Name) (id : NodeId) :
    (members.enter name id).position? other =
      if name = other then some members.size else members.position? other := by
  cases name with
  | mk raw =>
    cases other with
    | mk otherRaw => simp [enter, position?, Std.TreeMap.getElem?_insert]

theorem contains_eq (members : Members) (name : Name) :
    members.contains name = (members.position? name).isSome :=
  Std.TreeMap.contains_eq_isSome_getElem?

theorem contains_enter (members : Members) (name other : Name) (id : NodeId) :
    (members.enter name id).contains other = (decide (name = other) || members.contains other) := by
  rw [contains_eq, contains_eq, position?_enter]
  split <;> simp_all

theorem get?_eq_none_of_not_contains (unused : members.contains name = false) :
    members.get? name = none := by
  rw [contains_eq, Option.isSome_eq_false_iff, Option.isNone_iff_eq_none] at unused
  rw [get?, unused]
  rfl

theorem get?_eq_some_iff_position :
    members.get? name = some id ↔ ∃ (position : Nat) (found : Name),
      members.position? name = some position ∧
        members.order[position]? = some (found, id) := by
  simp [get?, Option.bind_eq_some_iff]

theorem get?_enter_self (members : Members) (name : Name) (id : NodeId) :
    (members.enter name id).get? name = some id := by
  rw [get?_eq_some_iff_position]
  refine ⟨members.size, name, ?_, ?_⟩
  · rw [position?_enter, if_pos rfl]
  · simp [enter, size]

/-- A member is found after another one has been entered. -/
theorem get?_enter_of_some {entry : NodeId} (used : members.get? other = some id)
    (different : name ≠ other) : (members.enter name entry).get? other = some id := by
  obtain ⟨position, found, placed, stands⟩ := get?_eq_some_iff_position.mp used
  refine get?_eq_some_iff_position.mpr ⟨position, found, ?_, ?_⟩
  · rw [position?_enter, if_neg different, placed]
  · have inside : position < members.order.size := (Array.getElem?_eq_some_iff.mp stands).1
    rw [enter, Array.getElem?_push, if_neg (Nat.ne_of_lt inside), stands]

theorem consistent_empty : Members.empty.Consistent where
  position_iff := by
    intro name position
    simp [empty, position?]

namespace Consistent

theorem get?_eq_some_iff (consistent : members.Consistent) :
    members.get? name = some id ↔ (name, id) ∈ members.toList := by
  rw [get?_eq_some_iff_position, mem_toList_iff]
  constructor
  · rintro ⟨position, found, placed, stands⟩
    obtain ⟨other, here⟩ := (consistent.position_iff name position).mp placed
    rw [stands] at here
    cases here
    exact ⟨position, stands⟩
  · rintro ⟨position, stands⟩
    exact ⟨position, name, (consistent.position_iff name position).mpr ⟨id, stands⟩, stands⟩

theorem get?_eq_none_iff (consistent : members.Consistent) :
    members.get? name = none ↔ name ∉ members.names := by
  rw [mem_names_iff, Option.eq_none_iff_forall_ne_some]
  simp [consistent.get?_eq_some_iff]

/-- Entering a new name keeps the index and the list in step. -/
theorem enter (consistent : members.Consistent) (unused : members.get? name = none) (id : NodeId) :
    (members.enter name id).Consistent where
  position_iff := by
    intro other position
    rw [position?_enter, Members.enter, Array.getElem?_push]
    by_cases same : name = other
    · subst same
      -- The name stands nowhere else, or it would be in use.
      have nowhere : ∀ entry, members.order[position]? ≠ some (name, entry) := by
        intro entry stands
        have used := consistent.get?_eq_some_iff.mpr (mem_toList_iff.mpr ⟨position, stands⟩)
        rw [unused] at used
        cases used
      rw [if_pos rfl]
      by_cases last : position = members.order.size
      · subst last
        simp [size]
      · simp [size, last, nowhere, Ne.symm last]
    · rw [if_neg same, consistent.position_iff]
      by_cases last : position = members.order.size
      · subst last
        simp [same]
      · simp [last]

theorem getElem?_names_iff (consistent : members.Consistent) {position : Nat} :
    members.names[position]? = some name ↔ members.position? name = some position := by
  rw [consistent.position_iff, names, toList, List.getElem?_map, Array.getElem?_toList]
  simp

/-- A name that stood at two positions would have both of them in the index. -/
theorem nodup_names (consistent : members.Consistent) : members.names.Nodup := by
  rw [List.Nodup, List.pairwise_iff_getElem]
  intro first second insideFirst insideSecond before same
  have placed := consistent.getElem?_names_iff.mp (List.getElem?_eq_getElem insideFirst)
  rw [same, consistent.getElem?_names_iff.mp (List.getElem?_eq_getElem insideSecond)] at placed
  exact Nat.ne_of_gt before (Option.some.inj placed)

end Consistent

/-! ## Any insertions -/

/-- The members after an insertion; one that is refused leaves them as they are. -/
def after (members : Members) (call : Name × NodeId) : Members :=
  match members.insert call.1 call.2 with
  | .ok entered => entered
  | .error _ => members

/-- The members after several insertions, the first of the list first. -/
def afterAll (members : Members) (calls : List (Name × NodeId)) : Members :=
  calls.foldl after members

/-- Of several insertions the first under each name, in their order. -/
def firstCalls (calls : List (Name × NodeId)) : List (Name × NodeId) :=
  calls.eraseDupsBy fun call earlier => call.1 == earlier.1

/-- The node of the first insertion under a name. -/
def firstUnder? (calls : List (Name × NodeId)) (name : Name) : Option NodeId :=
  (calls.find? fun call => call.1 == name).map Prod.snd

theorem insert_eq_error_iff {existing : NodeId} :
    members.insert name id = .error existing ↔ members.get? name = some existing := by
  rw [insert]
  cases members.get? name <;> simp

theorem after_of_used {existing : NodeId} (used : members.get? name = some existing) :
    members.after (name, id) = members := by
  rw [after, insert_eq_error_iff.mpr used]

theorem after_of_unused (unused : members.get? name = none) :
    members.after (name, id) = members.enter name id := by
  rw [after, insert_of_unused unused]

namespace Consistent

theorem after (consistent : members.Consistent) (call : Name × NodeId) :
    (members.after call).Consistent := by
  obtain ⟨name, id⟩ := call
  cases used : members.get? name with
  | some existing =>
    rw [after_of_used used]
    exact consistent
  | none =>
    rw [after_of_unused used]
    exact consistent.enter used id

theorem afterAll (consistent : members.Consistent) (calls : List (Name × NodeId)) :
    (members.afterAll calls).Consistent := by
  induction calls generalizing members with
  | nil => exact consistent
  | cons call rest ih => exact ih (consistent.after call)

theorem any_toList_eq (consistent : members.Consistent) (name : Name) :
    (members.toList.any fun entry => name == entry.1) = (members.get? name).isSome := by
  rw [Bool.eq_iff_iff, Option.isSome_iff_exists]
  simp [consistent.get?_eq_some_iff]

/-- The insertions go through their list as the search for duplicates does: the members are what has
been kept so far. -/
theorem toList_afterAll (consistent : members.Consistent) (calls : List (Name × NodeId)) :
    (members.afterAll calls).toList =
      List.eraseDupsBy.loop (fun call earlier => call.1 == earlier.1) calls
        members.toList.reverse := by
  induction calls generalizing members with
  | nil => simp [Members.afterAll, List.eraseDupsBy.loop]
  | cons call rest ih =>
    obtain ⟨name, id⟩ := call
    have later := ih (consistent.after (name, id))
    have seen := consistent.any_toList_eq name
    rw [Members.afterAll, List.foldl_cons, List.eraseDupsBy.loop, List.any_reverse, seen]
    cases used : members.get? name with
    | some existing =>
      rw [after_of_used used] at later ⊢
      exact later
    | none =>
      rw [after_of_unused used] at later ⊢
      rw [toList_enter, List.reverse_append] at later
      exact later

theorem get?_enter (consistent : members.Consistent) (unused : members.get? name = none)
    (id : NodeId) (other : Name) :
    (members.enter name id).get? other = if name = other then some id else members.get? other := by
  by_cases same : name = other
  · subst same
    rw [if_pos rfl, get?_enter_self]
  · rw [if_neg same]
    apply Option.ext
    intro node
    rw [(consistent.enter unused id).get?_eq_some_iff, consistent.get?_eq_some_iff, toList_enter]
    simp [Ne.symm same]

/-- A name in use keeps its node, and any other gets the node of its first insertion. -/
theorem get?_afterAll (consistent : members.Consistent) (calls : List (Name × NodeId))
    (name : Name) :
    (members.afterAll calls).get? name = (members.get? name).or (firstUnder? calls name) := by
  induction calls generalizing members with
  | nil => simp [Members.afterAll, firstUnder?]
  | cons call rest ih =>
    obtain ⟨entered, id⟩ := call
    rw [Members.afterAll, List.foldl_cons]
    refine (ih (consistent.after (entered, id))).trans ?_
    cases used : members.get? entered with
    | some existing =>
      rw [after_of_used used]
      by_cases same : entered = name
      · subst same
        simp [used]
      · simp [firstUnder?, same]
    | none =>
      rw [after_of_unused used, consistent.get?_enter used]
      by_cases same : entered = name
      · subst same
        simp [used, firstUnder?]
      · simp [firstUnder?, same]

end Consistent

/-- What holds of the members that insertions make of none. -/
structure Recounts (members : Members) (calls : List (Name × NodeId)) : Prop where
  /-- The index has the names that occur, each with the position at which it stands. -/
  index_iff : ∀ (name : Name) (position : Nat),
    members.index[name.raw]? = some position ↔ members.names[position]? = some name
  /-- Every position in the index is one of the list. -/
  inside : ∀ (raw position : Nat),
    members.index[raw]? = some position → position < members.order.size
  /-- No name occurs twice. -/
  nodup : members.names.Nodup
  /-- A name is found exactly with the node that it stands beside. -/
  get?_iff : ∀ name id, members.get? name = some id ↔ (name, id) ∈ members.toList
  contains_iff : ∀ name, members.contains name = true ↔ name ∈ members.names
  /-- A name that occurs is refused with the node of its first insertion, and nothing changes. -/
  refused : ∀ name ∈ members.names, ∀ id, ∃ first, firstUnder? calls name = some first ∧
    members.insert name id = .error first ∧ members.after (name, id) = members
  /-- Any other name is entered at the end. -/
  entered : ∀ name, name ∉ members.names → ∀ id, firstUnder? calls name = none ∧
    members.insert name id = .ok (members.after (name, id)) ∧
    (members.after (name, id)).toList = members.toList ++ [(name, id)]
  /-- The list holds the first insertions, in their order. -/
  order : members.toList = firstCalls calls

/-- Whatever is inserted, the index and the list stay in step, and the list recounts the first
insertions. -/
theorem recounts_afterAll (calls : List (Name × NodeId)) :
    (Members.empty.afterAll calls).Recounts calls := by
  have consistent := consistent_empty.afterAll calls
  have order : (Members.empty.afterAll calls).toList = firstCalls calls :=
    consistent_empty.toList_afterAll calls
  have found : ∀ name, (Members.empty.afterAll calls).get? name = firstUnder? calls name :=
    consistent_empty.get?_afterAll calls
  generalize Members.empty.afterAll calls = members at *
  have placed_iff : ∀ (name : Name) (position : Nat),
      members.index[name.raw]? = some position ↔ members.names[position]? = some name :=
    fun _ _ => consistent.getElem?_names_iff.symm
  refine ⟨placed_iff, ?_, consistent.nodup_names, fun _ _ => consistent.get?_eq_some_iff, ?_, ?_,
    ?_, order⟩
  · intro raw position placed
    obtain ⟨inside, -⟩ := List.getElem?_eq_some_iff.mp ((placed_iff ⟨raw⟩ position).mp placed)
    simpa [names, toList] using inside
  · intro name
    rw [contains_eq, Option.isSome_iff_exists, List.mem_iff_getElem?]
    exact exists_congr fun position => placed_iff name position
  · intro name occurs id
    obtain ⟨first, stands⟩ := mem_names_iff.mp occurs
    have used := consistent.get?_eq_some_iff.mpr stands
    exact ⟨first, (found name).symm.trans used, insert_eq_error_iff.mpr used, after_of_used used⟩
  · intro name absent id
    have unused := consistent.get?_eq_none_iff.mpr absent
    refine ⟨(found name).symm.trans unused, ?_, ?_⟩
    · rw [after_of_unused unused, insert_of_unused unused]
    · rw [after_of_unused unused, toList_enter]

end Members

end Declarations
