import Declarations.Proofs.Calls
import Declarations.Proofs.Course

/-!
# The footprint of a resolution

Whatever is asked of a resolution, its store keeps its size, and a node keeps everything but the
mark that it may get: a declaration the mark of being resolved, a reference that is neither bound
nor given up one of the two. A mark that is there stays as it is. So the names of a module stand for
the same declarations in every state that a pass comes by.
-/

namespace Declarations

/-- A node without its marks. -/
def Content.bare : Content → Content
  | .module data => .module data
  | content => content.outline

/-- A mark that a node without one can get. -/
inductive Content.Gains : Content → Content → Prop
  | resolved {content : Content} (declares : content.kind.isDeclaration = true)
      (unresolved : content.isResolved = false) :
      Gains content (content.mapHeader Header.markResolved)
  | typeTarget (name : Name) (target : TypeTarget) :
      Gains (.typeRef { name := name }) (.typeRef { name := name, target := some target })
  | typeFailed (name : Name) :
      Gains (.typeRef { name := name }) (.typeRef { name := name, failed := true })
  | nameTarget (path : List Name) (target : NodeId) :
      Gains (.nameRef { path := path }) (.nameRef { path := path, target := some target })
  | nameFailed (path : List Name) :
      Gains (.nameRef { path := path }) (.nameRef { path := path, failed := true })

/-- A reference that is neither bound nor given up is its name alone. -/
theorem TypeReference.eq_of_not_isSettled {reference : TypeReference}
    (isOpen : reference.isSettled = false) : reference = { name := reference.name } := by
  obtain ⟨name, target, failed⟩ := reference
  obtain ⟨unbound, unfailed⟩ := Bool.or_eq_false_iff.mp isOpen
  have none : target = none := by simpa using unbound
  have kept : failed = false := unfailed
  rw [none, kept]

theorem NameReference.eq_of_not_isSettled {reference : NameReference}
    (isOpen : reference.isSettled = false) : reference = { path := reference.path } := by
  obtain ⟨path, target, failed⟩ := reference
  obtain ⟨unbound, unfailed⟩ := Bool.or_eq_false_iff.mp isOpen
  have none : target = none := by simpa using unbound
  have kept : failed = false := unfailed
  rw [none, kept]

namespace Content.Advances

variable {first second : Content}

theorem bare_eq (advances : first.Advances second) : second.bare = first.bare := by
  cases advances with
  | same | bindType | bindName => rfl
  | resolve | giveUp => cases first <;> rfl

/-- A step that changes a node adds a mark that the node can get. -/
theorem eq_or_gains (advances : first.Advances second) : second = first ∨ first.Gains second := by
  cases advances with
  | same => exact .inl rfl
  | resolve =>
    cases declares : first.kind.isDeclaration with
    | false => exact .inl (by cases first <;> first | rfl | cases declares)
    | true =>
      cases resolved : first.isResolved with
      | false => exact .inr (.resolved declares resolved)
      | true => exact .inl (mapHeader_markResolved_of_isMarked (isMarked_of_isResolved resolved))
  | @bindType reference target isOpen =>
    rw [TypeReference.eq_of_not_isSettled isOpen]
    exact .inr (.typeTarget reference.name target)
  | @bindName reference target isOpen =>
    rw [NameReference.eq_of_not_isSettled isOpen]
    exact .inr (.nameTarget reference.path target)
  | giveUp isOpen =>
    cases first with
    | typeRef reference =>
      rw [TypeReference.eq_of_not_isSettled isOpen]
      exact .inr (.typeFailed reference.name)
    | nameRef reference =>
      rw [NameReference.eq_of_not_isSettled isOpen]
      exact .inr (.nameFailed reference.path)
    | _ => exact .inl rfl

end Content.Advances

namespace Store

variable {first second : Store}

/-- The second store has the nodes of the first, some with a mark they did not have. -/
structure Footprint (first second : Store) : Prop where
  size : second.size = first.size
  span : ∀ id, second.span id = first.span id
  /-- Without marks the nodes are the same. -/
  bare : ∀ id, (second.content? id).map Content.bare = (first.content? id).map Content.bare
  /-- A mark stays as it is. -/
  kept : ∀ {id content}, first.content? id = some content → content.isMarked = true →
    second.content? id = some content
  /-- A node that changed has gained a mark. -/
  gains : ∀ {id content later}, first.content? id = some content →
    second.content? id = some later → later = content ∨ content.Gains later

theorem Advances.footprint (advances : first.Advances second) : first.Footprint second where
  size := advances.size_eq
  span := advances.span
  bare id := by
    cases found : first.content? id with
    | none => rw [advances.content?_eq_none.mpr found]
    | some content =>
      obtain ⟨later, foundLater, step⟩ := advances.forward found
      rw [foundLater, Option.map_some, Option.map_some, step.bare_eq]
  kept found isMarked := advances.found_of_isMarked found isMarked
  gains found foundLater := by
    obtain ⟨later, foundAgain, step⟩ := advances.forward found
    rw [foundLater] at foundAgain
    cases foundAgain
    exact step.eq_or_gains

end Store

namespace Resolution

variable {resolution : Resolution}

/-- Of a path only the module around its end matters to a lookup. -/
theorem lookup_congr_path {path other : Path} (enclosing : path.enclosingModule? resolution.store =
      other.enclosingModule? resolution.store) (name : Name) :
    resolution.lookup path name = resolution.lookup other name := by
  rw [lookup, lookup, scope?, scope?, enclosing]

/-- Any calls leave a store in the footprint of any calls before them. And wherever a later pass
comes by, a name stands for what it stood for at the start, seen from the same module. -/
theorem afterAll_footprint (acyclic : resolution.store.Acyclic) (calls more : List Call) :
    (resolution.afterAll calls).store.Footprint (resolution.afterAll (calls ++ more)).store ∧
    ∀ {place node state}, (resolution.afterAll calls).PassesBy place node state →
      ∀ {path other : Path}, path.enclosingModule? resolution.store =
        other.enclosingModule? resolution.store →
      ∀ name, state.lookup path name = resolution.lookup other name := by
  have toCalls := (stable_advances acyclic).afterAll (.refl resolution) calls
  have acyclicThere := toCalls.store.acyclic acyclic
  refine ⟨?_, ?_⟩
  · have toMore := (stable_advances acyclicThere).afterAll (.refl _) more
    have split : resolution.afterAll (calls ++ more) = (resolution.afterAll calls).afterAll more :=
      List.foldl_append
    rw [split]
    exact toMore.store.footprint
  · intro place node state passes path other enclosing name
    have toState := toCalls.trans (passes.advances acyclicThere)
    rw [toState.parallel.lookup_eq]
    exact lookup_congr_path enclosing name

/-- A variable whose type is a variable is given up when the second pass comes by a cover that knows
itself alone. Seen from the module of the cover, its name still stands for it. -/
theorem afterAll_footprint_halfSettled :
    halfSettled.store.Acyclic ∧
    (halfSettled.afterAll [.pass]).store.Footprint
      (halfSettled.afterAll [.pass, .resolve .empty ⟨4⟩, .run]).store ∧
    ∃ place state, (halfSettled.afterAll [.pass]).PassesBy place ⟨5⟩ state ∧
      state.store.isGivenUp ⟨0⟩ = true ∧
      place.enclosingModule? halfSettled.store = some ⟨7⟩ ∧
      state.lookup (place.push ⟨5⟩) ⟨5⟩ = some (.decl ⟨6⟩) := by
  have acyclic : halfSettled.store.Acyclic := Store.acyclic_of_earlier (by decide)
  obtain ⟨footprint, lookups⟩ :=
    afterAll_footprint acyclic [.pass] [.resolve .empty ⟨4⟩, .run]
  have only : ∀ held : NodeId, [[held]] = [] ++ ([] ++ held :: []) :: [] := fun _ => rfl
  have passes : (halfSettled.afterAll [.pass]).PassesBy ((Path.empty.push ⟨7⟩).push ⟨6⟩) ⟨5⟩
      (resolveModules [⟨4⟩] (halfSettled.afterAll [.pass]).opening).2 :=
    ⟨[⟨4⟩], ⟨7⟩, [], rfl,
      .child rfl rfl (only ⟨6⟩) rfl rfl (.child rfl rfl (only ⟨5⟩) rfl rfl .here)⟩
  have sameModule : (((Path.empty.push ⟨7⟩).push ⟨6⟩).push ⟨5⟩).enclosingModule? halfSettled.store =
      (Path.empty.push ⟨7⟩).enclosingModule? halfSettled.store := by decide
  refine ⟨acyclic, footprint, _, _, passes, by decide, by decide, ?_⟩
  rw [lookups passes sameModule]
  decide

end Resolution

end Declarations
