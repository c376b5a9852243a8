import Mathlib.Data.List.Chain
import Declarations.Proofs.Footprint
import Declarations.Proofs.Locality
import Declarations.Resolution.Tour

/-!
# Where a tour stops

A tour keeps one path for all its nodes. Whatever becomes of a node, the path is left as it was
found, so a tour answers what the walk answers that hands a path down, and the calls that it notes
are those which the walk comes by. In a pass such a call is given the way down from a listed module,
and the module in which a reference looks its names up is the nearest one on that way.
-/

namespace Declarations

/-- The nodes of a path, outermost first. -/
def Path.outermostFirst (path : Path) : List NodeId := path.nodes.reverse

/-- A module on the way down with no other module after it. -/
def Store.NearestModule (store : Store) (way : List NodeId) (scope : NodeId) : Prop :=
  ∃ outer inner, way = outer ++ scope :: inner ∧ store.kind? scope = some .module ∧
    ∀ other ∈ inner, store.kind? other ≠ some .module

theorem Path.outermostFirst_push (path : Path) (id : NodeId) :
    (path.push id).outermostFirst = path.outermostFirst ++ [id] :=
  List.reverse_cons

theorem Path.enclosingModule?_eq_some_iff {path : Path} {store : Store} {scope : NodeId} :
    path.enclosingModule? store = some scope ↔ store.NearestModule path.outermostFirst scope := by
  have test : (fun id => (store.kind? id).any (· == .module)) =
      fun id => decide (store.kind? id = some .module) := by
    funext id
    rw [Bool.eq_iff_iff]
    simp [Option.any_eq_true]
  rw [enclosingModule?, enclosing?, test, List.find?_eq_some_iff_append]
  constructor
  · rintro ⟨found, inner, outer, split, others⟩
    refine ⟨outer.reverse, inner.reverse, ?_, by simpa using found, by simpa using others⟩
    simp [outermostFirst, split]
  · rintro ⟨outer, inner, split, found, others⟩
    refine ⟨by simpa using found, inner.reverse, outer.reverse, ?_, by simpa using others⟩
    have turned := congrArg List.reverse split
    simpa [outermostFirst] using turned

namespace Resolution

/-! ## The calls of a walk -/

/-- The walk that begins at a node calls for a node at the end of a path. -/
def Calls (levels : Nat) (path : Path) (id : NodeId) (start : Resolution) (place : Path)
    (node : NodeId) : Prop :=
  ∃ state, ComesBy levels path id start place node state

section

variable {visit : NodeId → Resolution → Option (Progress × Resolution)}
  {calls : NodeId → Resolution → Path → NodeId → Prop} {id : NodeId} {rest stage : List NodeId}
  {stages : List (List NodeId)} {start middle : Resolution} {first : Progress} {place : Path}
  {node : NodeId}

/-- One of the visits of a list makes a call. -/
def CallsAmong (visit : NodeId → Resolution → Option (Progress × Resolution))
    (calls : NodeId → Resolution → Path → NodeId → Prop) (ids : List NodeId) (start : Resolution)
    (place : Path) (node : NodeId) : Prop :=
  ∃ early child late own reached, ids = early ++ child :: late ∧
    resolveAll visit early start = some (own, reached) ∧ calls child reached place node

/-- One of the visits of a stage makes a call, and the stages before it are done. -/
def CallsInStages (visit : NodeId → Resolution → Option (Progress × Resolution))
    (calls : NodeId → Resolution → Path → NodeId → Prop) (stages : List (List NodeId))
    (start : Resolution) (place : Path) (node : NodeId) : Prop :=
  ∃ before stage after middle, stages = before ++ stage :: after ∧
    resolveStages visit before start = some (.done, middle) ∧
    CallsAmong visit calls stage middle place node

theorem not_callsAmong_nil : ¬ CallsAmong visit calls [] start place node := by
  rintro ⟨early, child, late, -, -, split, -⟩
  simp at split

theorem callsAmong_cons (visited : visit id start = some (first, middle)) :
    CallsAmong visit calls (id :: rest) start place node ↔
      calls id start place node ∨ CallsAmong visit calls rest middle place node := by
  constructor
  · rintro ⟨early, child, late, own, reached, split, walked, called⟩
    cases early with
    | nil =>
      cases split
      cases walked
      exact .inl called
    | cons head early =>
      cases split
      simp only [resolveAll, visited, Option.bind_eq_bind, Option.bind_some] at walked
      obtain ⟨⟨others, final⟩, tail, ended⟩ := Option.bind_eq_some_iff.mp walked
      cases ended
      exact .inr ⟨early, child, late, others, final, rfl, tail, called⟩
  · rintro (called | ⟨early, child, late, own, reached, rfl, walked, called⟩)
    · exact ⟨[], id, rest, .done, start, rfl, rfl, called⟩
    · refine ⟨id :: early, child, late, first.and own, reached, rfl, ?_, called⟩
      simp [resolveAll, visited, walked]

theorem not_callsInStages_nil : ¬ CallsInStages visit calls [] start place node := by
  rintro ⟨before, stage, after, -, split, -⟩
  simp at split

theorem callsInStages_cons_done (visited : resolveAll visit stage start = some (.done, middle)) :
    CallsInStages visit calls (stage :: stages) start place node ↔
      CallsAmong visit calls stage start place node ∨
        CallsInStages visit calls stages middle place node := by
  constructor
  · rintro ⟨before, own, after, reached, split, walked, called⟩
    cases before with
    | nil =>
      cases split
      cases walked
      exact .inl called
    | cons head before =>
      cases split
      rw [resolveStages, visited] at walked
      exact .inr ⟨before, own, after, reached, rfl, walked, called⟩
  · rintro (called | ⟨before, own, after, reached, rfl, walked, called⟩)
    · exact ⟨[], stage, stages, start, rfl, rfl, called⟩
    · refine ⟨stage :: before, own, after, reached, rfl, ?_, called⟩
      simp [resolveStages, visited, walked]

theorem callsInStages_cons_pending
    (visited : resolveAll visit stage start = some (.pending, middle)) :
    CallsInStages visit calls (stage :: stages) start place node ↔
      CallsAmong visit calls stage start place node := by
  constructor
  · rintro ⟨before, own, after, reached, split, walked, called⟩
    cases before with
    | nil =>
      cases split
      cases walked
      exact called
    | cons head before =>
      cases split
      rw [resolveStages, visited] at walked
      cases walked
  · intro called
    exact ⟨[], stage, stages, start, rfl, rfl, called⟩

end

variable {levels : Nat} {path place : Path} {id node : NodeId} {start final : Resolution}
  {progress : Progress} {content : Content}

/-- A walk makes the call it begins with, and those that it makes in the stages of an open node. -/
theorem calls_iff :
    Calls (levels + 1) path id start place node ↔ (place = path ∧ node = id) ∨
      ∃ content, start.store.content? id = some content ∧ content.isMarked = false ∧
        CallsInStages (resolveWithin levels (path.push id)) (Calls levels (path.push id))
          content.stages start place node := by
  constructor
  · rintro ⟨state, comes⟩
    cases comes with
    | here => exact .inl ⟨rfl, rfl⟩
    | child found isOpen split earlier siblings comes =>
      exact .inr ⟨_, found, isOpen, _, _, _, _, split, earlier, _, _, _, _, _, rfl, siblings, state,
        comes⟩
  · rintro (⟨rfl, rfl⟩ | ⟨content, found, isOpen, before, stage, after, middle, split, earlier,
      called⟩)
    · exact ⟨start, .here⟩
    · obtain ⟨early, child, late, own, reached, rfl, siblings, state, comes⟩ := called
      exact ⟨state, .child found isOpen split earlier siblings comes⟩

theorem calls_of_missing (found : start.store.content? id = none) :
    Calls (levels + 1) path id start place node ↔ place = path ∧ node = id := by
  simp [calls_iff, found]

/-- Below a reference, and below a node that bears its mark, nothing is called. -/
theorem calls_of_not_entered (found : start.store.content? id = some content)
    (notEntered : content.isReference = true ∨ content.isMarked = true) :
    Calls (levels + 1) path id start place node ↔ place = path ∧ node = id := by
  rw [calls_iff, or_iff_left]
  rintro ⟨same, foundSame, isOpen, called⟩
  rw [found] at foundSame
  cases foundSame
  have isReference := notEntered.resolve_right (by simp [isOpen])
  cases content with
  | typeRef | nameRef => exact not_callsInStages_nil called
  | _ => cases isReference

theorem calls_of_entered (found : start.store.content? id = some content)
    (isOpen : content.isMarked = false) :
    Calls (levels + 1) path id start place node ↔ (place = path ∧ node = id) ∨
      CallsInStages (resolveWithin levels (path.push id)) (Calls levels (path.push id))
        content.stages start place node := by
  simp [calls_iff, found, isOpen]

/-! ## The calls that a tour notes -/

/-- The stops are calls that left the path which they were given, and they are all of these. -/
def Notes (stops : List Stop) (called : Path → NodeId → Prop) : Prop :=
  ∀ stop, stop ∈ stops ↔ stop.left = stop.path ∧ called stop.path stop.node

/-- On a tour with this path a step makes of the resolution what a visit makes of it. It leaves the
path as it was, and it notes the calls that it makes. -/
def Tours (step : Tour → Option (Progress × Tour)) (path : Path)
    (called : Resolution → Path → NodeId → Prop) : Visit := fun start progress final =>
  ∃ more, Notes more (called start) ∧
    ∀ stops, step ⟨start, path, stops⟩ = some (progress, ⟨final, path, more ++ stops⟩)

theorem Notes.of_iff {stops : List Stop} {called others : Path → NodeId → Prop}
    (notes : Notes stops called) (same : ∀ place node, others place node ↔ called place node) :
    Notes stops others := by
  intro stop
  rw [notes stop, same]

theorem notes_nil {called : Path → NodeId → Prop} (none : ∀ place node, ¬ called place node) :
    Notes [] called := by
  intro stop
  simp [none]

theorem Notes.append {first second : List Stop} {called others : Path → NodeId → Prop}
    (notes : Notes first called) (more : Notes second others) :
    Notes (second ++ first) fun place node => called place node ∨ others place node := by
  intro stop
  rw [List.mem_append, or_comm, notes stop, more stop, ← and_or_left]

/-- The call that is noted last is the one that was made first. -/
theorem Notes.cons {stops : List Stop} {called : Path → NodeId → Prop}
    (notes : Notes stops called) (id : NodeId) (path : Path) :
    Notes (⟨id, path, path⟩ :: stops) fun place node =>
      (place = path ∧ node = id) ∨ called place node := by
  intro stop
  obtain ⟨node, place, left⟩ := stop
  rw [List.mem_cons, notes, Stop.mk.injEq]
  dsimp only
  constructor
  · rintro (⟨rfl, rfl, rfl⟩ | ⟨balanced, called⟩)
    · exact ⟨rfl, .inl ⟨rfl, rfl⟩⟩
    · exact ⟨balanced, .inr called⟩
  · rintro ⟨rfl, ⟨rfl, rfl⟩ | called⟩
    · exact .inl ⟨rfl, rfl, rfl⟩
    · exact .inr ⟨rfl, called⟩

section

variable {visit : NodeId → Resolution → Option (Progress × Resolution)}
  {step : NodeId → Tour → Option (Progress × Tour)}
  {calls : NodeId → Resolution → Path → NodeId → Prop}

theorem VisitsAll.tours {ids : List NodeId}
    (visited : VisitsAll (fun id start progress final =>
      visit id start = some (progress, final) ∧
        Tours (step id) path (calls id) start progress final)
      ids start progress final) :
    Tours (resolveAll step ids) path (CallsAmong visit calls ids) start progress final := by
  induction visited with
  | nil => exact ⟨[], notes_nil fun _ _ => not_callsAmong_nil, fun stops => rfl⟩
  | cons head _ ih =>
    obtain ⟨walked, own, notesOwn, steps⟩ := head
    obtain ⟨others, notesOthers, stepsOthers⟩ := ih
    refine ⟨others ++ own, ?_, ?_⟩
    · exact (notesOwn.append notesOthers).of_iff fun _ _ => callsAmong_cons walked
    · intro stops
      simp [resolveAll, steps, stepsOthers]

theorem VisitsStages.tours {stages : List (List NodeId)}
    (visited : VisitsStages (fun id start progress final =>
      visit id start = some (progress, final) ∧
        Tours (step id) path (calls id) start progress final)
      stages start progress final) :
    Tours (resolveStages step stages) path (CallsInStages visit calls stages) start progress
      final := by
  induction visited with
  | nil => exact ⟨[], notes_nil fun _ _ => not_callsInStages_nil, fun stops => rfl⟩
  | done head _ ih =>
    have walked := resolveAll_of_visitsAll (head.imp fun _ _ _ _ _ visit => visit.1)
    obtain ⟨own, notesOwn, steps⟩ := head.tours
    obtain ⟨others, notesOthers, stepsOthers⟩ := ih
    refine ⟨others ++ own, ?_, ?_⟩
    · exact (notesOwn.append notesOthers).of_iff fun _ _ => callsInStages_cons_done walked
    · intro stops
      simp [resolveStages, steps, stepsOthers]
  | pending head =>
    have walked := resolveAll_of_visitsAll (head.imp fun _ _ _ _ _ visit => visit.1)
    obtain ⟨own, notesOwn, steps⟩ := head.tours
    refine ⟨own, notesOwn.of_iff fun _ _ => callsInStages_cons_pending walked, ?_⟩
    intro stops
    simp [resolveStages, steps]

end

/-! ## Settling one node -/

section

variable {step : NodeId → Tour → Option (Progress × Tour)} {stops noted : List Stop}

/-- A node that is not entered is settled on a tour as on a walk. -/
theorem settle_of_not_entered (found : start.store.content? id = some content)
    (notEntered : content.isReference = true ∨ content.isMarked = true)
    (walked : Walks (levels + 1) path id start progress final) :
    Tour.settle step id content ⟨start, path.push id, stops⟩ =
      some (progress, ⟨final, path.push id, stops⟩) := by
  rw [Walks, resolveWithin, resolveNode, found] at walked
  cases content with
  | typeRef data | nameRef data =>
    have answered := Option.some.inj walked
    simp only [Tour.settle, answered]
    rfl
  | _ =>
    have resolved := notEntered.resolve_left Bool.false_ne_true
    cases (if_pos resolved).symm.trans walked
    exact if_pos resolved

/-- A node that is entered is settled by its stages. -/
theorem settle_of_entered (notReference : content.isReference = false)
    (isOpen : content.isMarked = false) {reached : Resolution}
    (steps : resolveStages step content.stages ⟨start, path.push id, stops⟩ =
      some (progress, ⟨reached, path.push id, noted⟩)) :
    Tour.settle step id content ⟨start, path.push id, stops⟩ =
      some (progress, ⟨if progress = .done then reached.finish id else reached, path.push id,
        noted⟩) := by
  have unresolved : content.isResolved = false := by
    rw [Bool.eq_false_iff]
    intro resolved
    rw [Content.isMarked_of_isResolved resolved] at isOpen
    cases isOpen
  cases content with
  | typeRef data | nameRef data => cases notReference
  | _ =>
    simp only [Tour.settle, unresolved, steps]
    cases progress <;> rfl

/-- A node is on the path while it is settled, and only then. -/
theorem resolveWithin_of_settle (found : start.store.content? id = some content)
    (settled : Tour.settle (Tour.resolveWithin levels) id content ⟨start, path.push id, stops⟩ =
      some (progress, ⟨final, path.push id, noted⟩)) :
    Tour.resolveWithin (levels + 1) id ⟨start, path, stops⟩ =
      some (progress, ⟨final, path, ⟨id, path, path⟩ :: noted⟩) := by
  simp only [Tour.resolveWithin, Tour.resolveNode, found, Tour.within, settled]
  rfl

end

/-! ## Walks, passes and their tours -/

/-- The stops of a tour that calls for its own node alone. -/
theorem notes_singleton {called : Path → NodeId → Prop}
    (own : ∀ place node, called place node ↔ place = path ∧ node = id) :
    Notes [⟨id, path, path⟩] called := by
  have nothing : Notes [] fun _ _ => False := notes_nil fun _ _ never => never
  refine (nothing.cons id path).of_iff fun place node => ?_
  rw [own, or_false]

theorem tours_of_not_entered (found : start.store.content? id = some content)
    (notEntered : content.isReference = true ∨ content.isMarked = true)
    (walked : Walks (levels + 1) path id start progress final) :
    Tours (Tour.resolveWithin (levels + 1) id) path (Calls (levels + 1) path id) start progress
      final := by
  refine ⟨[⟨id, path, path⟩], ?_, ?_⟩
  · exact notes_singleton fun _ _ => calls_of_not_entered found notEntered
  · intro stops
    exact resolveWithin_of_settle found (settle_of_not_entered found notEntered walked)

theorem tours_of_entered (found : start.store.content? id = some content)
    (notReference : content.isReference = false) (isOpen : content.isMarked = false)
    {reached : Resolution}
    (stages : Tours (resolveStages (Tour.resolveWithin levels) content.stages) (path.push id)
      (CallsInStages (resolveWithin levels (path.push id)) (Calls levels (path.push id))
        content.stages) start progress reached) :
    Tours (Tour.resolveWithin (levels + 1) id) path (Calls (levels + 1) path id) start progress
      (if progress = .done then reached.finish id else reached) := by
  obtain ⟨below, notes, steps⟩ := stages
  refine ⟨⟨id, path, path⟩ :: below, ?_, ?_⟩
  · exact (notes.cons id path).of_iff fun _ _ => calls_of_entered found isOpen
  · intro stops
    exact resolveWithin_of_settle found (settle_of_entered notReference isOpen (steps stops))

/-- A tour answers what the walk answers, leaves its path as it was, and notes what the walk comes
by. -/
theorem Walks.tours (walked : Walks levels path id start progress final) :
    Tours (Tour.resolveWithin levels id) path (Calls levels path id) start progress final := by
  induction walked using Walks.induction with
  | @missing levels path id start found =>
    refine ⟨[⟨id, path, path⟩], notes_singleton fun _ _ => calls_of_missing found, ?_⟩
    intro stops
    simp only [Tour.resolveWithin, Tour.resolveNode, found]
    rfl
  | marked found isMarked =>
    exact tours_of_not_entered found (.inr isMarked) (.marked found isMarked)
  | bind found isReference isOpen judged =>
    exact tours_of_not_entered found (.inl isReference) (.bind found isReference isOpen judged)
  | wait found isReference isOpen judged =>
    exact tours_of_not_entered found (.inl isReference) (.wait found isReference isOpen judged)
  | reject found isReference isOpen judged =>
    exact tours_of_not_entered found (.inl isReference) (.reject found isReference isOpen judged)
  | finish found notReference isOpen _ stages =>
    have below := VisitsStages.tours (stages.imp fun _ _ _ _ _ ⟨walked, tours⟩ => ⟨walked, tours⟩)
    exact tours_of_entered found notReference isOpen below
  | stop found notReference isOpen _ stages =>
    have below := VisitsStages.tours (stages.imp fun _ _ _ _ _ ⟨walked, tours⟩ => ⟨walked, tours⟩)
    exact tours_of_entered found notReference isOpen below

/-- The walk of the first module, or that of a later one, makes a call. -/
theorem exists_split_cons {rest : List NodeId} (called : NodeId → Resolution → Prop) :
    (∃ early child late, id :: rest = early ++ child :: late ∧
        called child (resolveModules early start).2) ↔
      called id start ∨ ∃ early child late, rest = early ++ child :: late ∧
        called child (resolveModules early (start.resolve .empty id).2).2 := by
  constructor
  · rintro ⟨early, child, late, split, isCalled⟩
    cases early with
    | nil =>
      cases split
      exact .inl isCalled
    | cons head early =>
      cases split
      exact .inr ⟨early, child, late, rfl, isCalled⟩
  · rintro (isCalled | ⟨early, child, late, rfl, isCalled⟩)
    · exact ⟨[], id, rest, rfl, isCalled⟩
    · exact ⟨id :: early, child, late, rfl, isCalled⟩

theorem exists_tour_resolveModules {base : Store} (acyclic : base.Acyclic) (ids : List NodeId)
    (since : base.Advances start.store) :
    ∃ more, Notes more (fun place node => ∃ early id late, ids = early ++ id :: late ∧
        Calls (base.size + 1) .empty id (resolveModules early start).2 place node) ∧
      ∀ path stops, Tour.resolveModules ids ⟨start, path, stops⟩ =
        ((resolveModules ids start).1, ⟨(resolveModules ids start).2,
          if ids.isEmpty then path else .empty, more ++ stops⟩) := by
  induction ids generalizing start with
  | nil =>
    refine ⟨[], notes_nil ?_, fun _ _ => rfl⟩
    rintro place node ⟨early, id, late, split, -⟩
    simp at split
  | cons id rest ih =>
    have walked := walks_resolve acyclic since .empty id
    obtain ⟨own, notesOwn, steps⟩ := walked.tours
    obtain ⟨others, notesOthers, stepsOthers⟩ := ih (since.trans walked.advances.store)
    refine ⟨others ++ own, ?_, ?_⟩
    · exact (notesOwn.append notesOthers).of_iff fun place node =>
        exists_split_cons fun child reached =>
          Calls (base.size + 1) .empty child reached place node
    · intro path stops
      rw [← since.size_eq] at steps
      simp [Tour.resolveModules, Tour.resolve, steps, stepsOthers, resolveModules]

variable {resolution state : Resolution}

/-! ## Where the calls of a pass stand -/

/-- The path that a walk hands down to a node goes on from the path it began with. -/
theorem ComesBy.position (comes : ComesBy levels path id start place node state)
    (since : resolution.Advances start) (position : resolution.Position path id) :
    resolution.Position place node := by
  induction comes with
  | here => exact position
  | @child levels path id start content before after early late held middle reached progress place
      node state found isOpen split earlier siblings _ ih =>
    have member : held ∈ content.children := by simp [Content.children, split]
    have isHeld : resolution.store.Holds id held :=
      since.store.holds_iff.mp (Store.holds_iff.mpr ⟨content, found, member⟩)
    exact ih (since.trans (advances_before earlier siblings)) (.child position isHeld)

theorem PassesBy.position (passes : resolution.PassesBy place node state)
    (acyclic : resolution.store.Acyclic) : resolution.Position place node := by
  obtain ⟨early, id, late, split, comes⟩ := passes
  refine comes.position (advances_resolveModules acyclic early) (.root ?_)
  simp [split]

/-- What a call of a pass finds: its path, and the module in which a reference looks names up. -/
structure InPlace (resolution : Resolution) (place : Path) (node : NodeId) (state : Resolution) :
    Prop where
  /-- Each node of the path holds the next, and the last of them holds the node. -/
  chain : List.IsChain resolution.store.Holds (place.outermostFirst ++ [node])
  /-- The path begins with a listed module, or it is empty and the node is one. -/
  listed : ∃ root ∈ resolution.modules, (place.outermostFirst ++ [node]).head? = some root
  /-- The module around a reference is the nearest one on the path. -/
  scope_iff : resolution.store.Refers node → ∀ scope,
    (place.push node).enclosingModule? state.store = some scope ↔
      resolution.store.NearestModule place.outermostFirst scope
  /-- A name stands at the reference for what it stands for in that module. -/
  lookup : resolution.store.Refers node → ∀ scope,
    resolution.store.NearestModule place.outermostFirst scope → ∀ name,
      state.lookup (place.push node) name = resolution.lookup (Path.empty.push scope) name

namespace Position

theorem chain (position : resolution.Position path id) :
    List.IsChain resolution.store.Holds (path.outermostFirst ++ [id]) := by
  induction position with
  | root => exact .singleton _
  | child _ held ih =>
    rw [Path.outermostFirst_push]
    refine ih.append (.singleton _) ?_
    simpa using held

theorem listed (position : resolution.Position path id) :
    ∃ root ∈ resolution.modules, (path.outermostFirst ++ [id]).head? = some root := by
  induction position with
  | root listed => exact ⟨_, listed, rfl⟩
  | child _ _ ih =>
    obtain ⟨root, member, first⟩ := ih
    refine ⟨root, member, ?_⟩
    rw [Path.outermostFirst_push, List.head?_append, first, Option.some_or]

end Position

theorem PassesBy.inPlace (passes : resolution.PassesBy place node state)
    (acyclic : resolution.store.Acyclic) : resolution.InPlace place node state := by
  have position := passes.position acyclic
  have advances := passes.advances acyclic
  -- a reference is no module, so the search begins at what holds it
  have around : resolution.store.Refers node →
      (place.push node).enclosingModule? resolution.store =
        place.enclosingModule? resolution.store := by
    intro refers
    rw [Path.enclosingModule?_push, if_neg]
    rcases refers with isType | isName
    · simp [isType]
    · simp [isName]
  refine ⟨position.chain, position.listed, ?_, ?_⟩
  · intro refers scope
    rw [advances.store.sameOutline.enclosingModule?_eq, around refers,
      Path.enclosingModule?_eq_some_iff]
  · intro refers scope nearest name
    rw [advances.parallel.lookup_eq]
    apply lookup_congr_path
    have alone : (Path.empty.push scope).enclosingModule? resolution.store = some scope := by
      obtain ⟨-, -, -, isModule, -⟩ := nearest
      simp [Path.enclosingModule?_push, isModule]
    rw [around refers, alone, Path.enclosingModule?_eq_some_iff]
    exact nearest

/-- Whoever calls for a node gets the path back that was given, whatever the answer, and so does
every call on the way. In a pass the calls are those that the walks of the listed modules come by,
each at the end of the way down from a listed module, and a reference looks its names up in the
nearest module on that way. -/
theorem pass_in_place (acyclic : resolution.store.Acyclic) (path : Path) :
    (∀ id stops, ∃ more, (∀ stop ∈ more, stop.left = stop.path) ∧
      Tour.resolveWithin (resolution.store.size + 1) id ⟨resolution, path, stops⟩ =
        some ((resolution.resolve path id).1,
          ⟨(resolution.resolve path id).2, path, more ++ stops⟩)) ∧
    ∃ stops, Tour.pass ⟨resolution, path, []⟩ =
        (resolution.pass.1,
          ⟨resolution.pass.2, if resolution.modules.isEmpty then path else .empty, stops⟩) ∧
      (∀ root ∈ resolution.modules, ⟨root, .empty, .empty⟩ ∈ stops) ∧
      (∀ stop, stop ∈ stops ↔ stop.left = stop.path ∧
        ∃ state, resolution.PassesBy stop.path stop.node state) ∧
      ∀ place node state, resolution.PassesBy place node state →
        resolution.InPlace place node state := by
  refine ⟨?_, ?_⟩
  · intro id stops
    obtain ⟨more, notes, steps⟩ := (walks_resolve acyclic (.refl _) path id).tours
    exact ⟨more, fun stop member => ((notes stop).mp member).1, steps stops⟩
  · obtain ⟨stops, notes, steps⟩ := exists_tour_resolveModules acyclic resolution.modules
      (advances_opening resolution).store
    have stops_iff : ∀ stop, stop ∈ stops ↔ stop.left = stop.path ∧
        ∃ state, resolution.PassesBy stop.path stop.node state := by
      intro stop
      rw [notes stop]
      refine and_congr_right fun _ => ⟨?_, ?_⟩
      · rintro ⟨early, id, late, split, state, comes⟩
        exact ⟨state, early, id, late, split, comes⟩
      · rintro ⟨state, early, id, late, split, comes⟩
        exact ⟨early, id, late, split, state, comes⟩
    refine ⟨stops, ?_, ?_, stops_iff, fun _ _ _ passes => passes.inPlace acyclic⟩
    · have toured := steps path []
      rw [List.append_nil] at toured
      exact toured
    · intro root listed
      obtain ⟨early, late, split⟩ := List.append_of_mem listed
      exact (stops_iff _).mpr ⟨rfl, _, early, root, late, split, .here⟩

/-- Two modules, the second in the first. Both declare the same name, the inner one as a cover and
the outer one as a variable, and in both of them it is used as a type. The outer module lists a
missing node as well. -/
def shadowed : Resolution :=
  ofModules
    ⟨#[⟨.typeRef { name := ⟨1⟩ }, ⟨30, 34⟩⟩,
      ⟨.cover { header := { name := ⟨2⟩ }, fromType := some ⟨0⟩ }, ⟨15, 34⟩⟩,
      ⟨.cover { header := { name := ⟨1⟩ } }, ⟨35, 45⟩⟩,
      ⟨.module
        { name := ⟨3⟩
          declarations := [⟨1⟩, ⟨2⟩]
          symbols := [(⟨2⟩, ⟨1⟩), (⟨1⟩, ⟨2⟩)] }, ⟨10, 46⟩⟩,
      ⟨.variable { header := { name := ⟨1⟩ } }, ⟨62, 70⟩⟩,
      ⟨.typeRef { name := ⟨1⟩ }, ⟨54, 58⟩⟩,
      ⟨.variable { header := { name := ⟨4⟩ }, type := some ⟨5⟩ }, ⟨48, 60⟩⟩,
      ⟨.module
        { name := ⟨5⟩
          declarations := [⟨3⟩, ⟨9⟩, ⟨6⟩, ⟨4⟩]
          symbols := [(⟨4⟩, ⟨6⟩), (⟨1⟩, ⟨4⟩)] }, ⟨0, 72⟩⟩]⟩
    (.ofTexts ["item", "Box", "inner", "size", "outer"]) [⟨7⟩, ⟨3⟩]

/-- The way down to the reference in the inner module, from the outer one. -/
def wayDown : Path := .ofOutermost [⟨7⟩, ⟨3⟩, ⟨1⟩]

/-- The reference in the inner module has to wait, the one in the outer module is given up, and the
missing node is reported. None of this moves the path, and the inner reference does not see the
variable. -/
theorem pass_in_place_shadowed :
    shadowed.store.Acyclic ∧
    shadowed.pass.1 = .pending ∧ shadowed.pass.2.failed = true ∧
    (Tour.resolveWithin 9 ⟨9⟩ ⟨shadowed, wayDown, []⟩).map (fun answer => answer.2.path) =
      some wayDown ∧
    shadowed.lookup (Path.empty.push ⟨7⟩) ⟨1⟩ = some (.decl ⟨4⟩) ∧
    ∃ state, shadowed.PassesBy wayDown ⟨0⟩ state ∧
      (wayDown.push ⟨0⟩).enclosingModule? state.store = some ⟨3⟩ ∧
      state.lookup (wayDown.push ⟨0⟩) ⟨1⟩ = some (.decl ⟨2⟩) := by
  have acyclic : shadowed.store.Acyclic :=
    Store.acyclic_of_descending (fun id => if id.index < 8 then id.index + 1 else 0) (by decide)
  obtain ⟨alone, stops, toured, -, stops_iff, inPlace⟩ := pass_in_place acyclic wayDown
  obtain ⟨more, -, missing⟩ := alone ⟨9⟩ []
  have noted : ⟨⟨0⟩, wayDown, wayDown⟩ ∈ stops := by
    have same : (Tour.pass ⟨shadowed, wayDown, []⟩).2.stops = stops :=
      congrArg (fun answer => answer.2.stops) toured
    rw [← same]
    decide
  obtain ⟨-, state, passes⟩ := (stops_iff _).mp noted
  have placed := inPlace _ _ _ passes
  have refers : shadowed.store.Refers ⟨0⟩ := .inl rfl
  have nearest : shadowed.store.NearestModule wayDown.outermostFirst ⟨3⟩ :=
    ⟨[⟨7⟩], [⟨1⟩], rfl, rfl, by decide⟩
  refine ⟨acyclic, by decide, by decide, ?_, by decide, state, passes, ?_, ?_⟩
  · exact congrArg (Option.map fun answer => answer.2.path) missing
  · exact (placed.scope_iff refers ⟨3⟩).mpr nearest
  · rw [placed.lookup refers ⟨3⟩ nearest]
    decide

end Resolution

end Declarations
