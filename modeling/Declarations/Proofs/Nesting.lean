import Declarations.Proofs.Listing

/-!
# How deep walks go

Walks, traversals and listings go down from a node to the nodes it holds, and look names up without
going anywhere. Each is given a number of levels and answers `none` when it would go deeper. Where
no node is below itself, a number of levels above the size of the store is never used up, whatever
names stand for, which nodes are shared and which are missing, and more levels change no answer. The
calls of a walk are nested no deeper than that: all but the last of them are at different nodes of
the store, and the last may be at a node that is missing.
-/

namespace Declarations

/-- A fold depends on what its steps do at the members of the list. -/
theorem foldlM_congr {α β : Type} {members : List α} {first second : β → α → Option β}
    (same : ∀ member ∈ members, ∀ state, first state member = second state member) (state : β) :
    members.foldlM first state = members.foldlM second state := by
  induction members generalizing state with
  | nil => rfl
  | cons member rest ih =>
    have sameRest := fun other inRest => same other (List.mem_cons_of_mem member inRest)
    rw [List.foldlM_cons, List.foldlM_cons, same member List.mem_cons_self]
    cases second state member with
    | none => rfl
    | some next => exact ih sameRest next

/-! ## Listings -/

namespace Listing

variable {names : NameTable} {first second : Slot → Nat → NodeId → Writer → Option Writer}

/-- What is written for a node depends on what is written for the nodes in its slots. -/
theorem emitContent_congr {content : Content}
    (same : ∀ slot id, (slot, id) ∈ content.slots → ∀ depth writer,
      first slot depth id writer = second slot depth id writer) (depth : Nat) (writer : Writer) :
    emitContent names first depth content writer =
      emitContent names second depth content writer := by
  have heldSame : ∀ {held : Option NodeId}, (∀ id, held = some id → (.child, id) ∈ content.slots) →
      ∀ lead writer, emitHeld first depth lead held writer =
        emitHeld second depth lead held writer := by
    intro held inside lead writer
    cases held with
    | none => rfl
    | some id => exact same .child id (inside id rfl) depth _
  cases content with
  | module data =>
    apply foldlM_congr
    intro id member state
    exact same .child id (by simp [Content.slots, member]) depth state
  | cover data | element data =>
    simp only [emitContent]
    rw [heldSame]
    simp [Content.slots]
  | enum data =>
    have membersSame : ∀ writer, data.members.ids.foldlM
        (fun writer id => first .member (depth + 1) id writer) writer = data.members.ids.foldlM
        (fun writer id => second .member (depth + 1) id writer) writer := by
      apply foldlM_congr
      intro id member state
      exact same .member id (by simp [Content.slots, member]) (depth + 1) state
    simp only [emitContent, membersSame]
    rw [heldSame]
    simp [Content.slots]
  | «variable» data =>
    have typeSame := heldSame fun id (ofType : data.type = some id) => by
      simp [Content.slots, ofType]
    have valueSame := heldSame fun id (ofValue : data.value = some id) => by
      simp [Content.slots, ofValue]
    simp only [emitContent, typeSame, valueSame]
  | literal | typeRef | nameRef => rfl

/-- Levels that are left over change nothing. -/
theorem emitWithin_add {store : Store} (acyclic : store.Acyclic) {levels : Nat} {id : NodeId}
    (enough : store.rank id < levels) (extra : Nat) (slot : Slot) (depth : Nat) (writer : Writer) :
    emitWithin store names (levels + extra) slot depth id writer =
      emitWithin store names levels slot depth id writer := by
  induction levels generalizing slot depth id writer with
  | zero => omega
  | succ levels ih =>
    rw [Nat.succ_add]
    unfold emitWithin
    cases found : store.content? id with
    | none => rfl
    | some content =>
      have below : ∀ slot child, (slot, child) ∈ content.slots → ∀ depth writer,
          emitWithin store names (levels + extra) slot depth child writer =
            emitWithin store names levels slot depth child writer := by
        intro slot child member depth writer
        have lower : store.rank child < store.rank id :=
          acyclic.rank_lt_of_mem_slots found member
        exact ih (by omega) slot depth writer
      simp only [emitContent_congr below]

end Listing

/-! ## Traversals -/

namespace Store

variable {store : Store} {descends : Kind → Bool}

/-- A traversal that may go deeper than its node has nodes below it ends. -/
theorem exists_traverseWithin (acyclic : store.Acyclic) {levels : Nat} {id : NodeId}
    (enough : store.rank id < levels) (slot : Slot) (events : Array Event) :
    ∃ met, store.traverseWithin descends levels slot id events = some met := by
  induction levels generalizing slot id events with
  | zero => omega
  | succ levels ih =>
    unfold traverseWithin
    cases found : store.content? id with
    | none => exact ⟨events, rfl⟩
    | some content =>
      have total : ∀ held ∈ content.slots, ∀ events,
          ∃ met, store.traverseWithin descends levels held.1 held.2 events = some met := by
        intro held member events
        have lower := acyclic.rank_lt_of_mem_slots found member
        exact ih (by omega) held.1 events
      obtain ⟨below, meets⟩ :=
        Listing.exists_foldlM total (events.push (.enter content.kind id))
      by_cases admits : slot.admits content.kind = true
      · by_cases goesOn : descends content.kind = true
        · simp [admits, goesOn, meets]
        · simp [admits, goesOn]
      · simp [admits]

/-- Levels that are left over change nothing. -/
theorem traverseWithin_add (acyclic : store.Acyclic) {levels : Nat} {id : NodeId}
    (enough : store.rank id < levels) (extra : Nat) (slot : Slot) (events : Array Event) :
    store.traverseWithin descends (levels + extra) slot id events =
      store.traverseWithin descends levels slot id events := by
  induction levels generalizing slot id events with
  | zero => omega
  | succ levels ih =>
    rw [Nat.succ_add]
    unfold traverseWithin
    cases found : store.content? id with
    | none => rfl
    | some content =>
      have below : ∀ held ∈ content.slots, ∀ events,
          store.traverseWithin descends (levels + extra) held.1 held.2 events =
            store.traverseWithin descends levels held.1 held.2 events := by
        intro held member events
        have lower := acyclic.rank_lt_of_mem_slots found member
        exact ih (by omega) held.1 events
      simp only [foldlM_congr below]

end Store

namespace Resolution

variable {resolution start final : Resolution} {levels : Nat} {path place : Path} {id node : NodeId}
  {progress : Progress} {state : Resolution}

/-! ## Walks -/

/-- Levels that are left over change nothing. -/
theorem Walks.add (walked : Walks levels path id start progress final) (extra : Nat) :
    Walks (levels + extra) path id start progress final := by
  induction walked using Walks.induction with
  | missing found =>
    rw [Nat.add_right_comm]
    exact .missing found
  | marked found isMarked =>
    rw [Nat.add_right_comm]
    exact .marked found isMarked
  | bind found isReference isOpen judged =>
    rw [Nat.add_right_comm]
    exact .bind found isReference isOpen judged
  | wait found isReference isOpen judged =>
    rw [Nat.add_right_comm]
    exact .wait found isReference isOpen judged
  | reject found isReference isOpen judged =>
    rw [Nat.add_right_comm]
    exact .reject found isReference isOpen judged
  | finish found notReference isOpen _ stages =>
    rw [Nat.add_right_comm]
    exact .finish found notReference isOpen (stages.imp fun _ _ _ _ _ ⟨_, deeper⟩ => deeper)
  | stop found notReference isOpen _ stages =>
    rw [Nat.add_right_comm]
    exact .stop found notReference isOpen (stages.imp fun _ _ _ _ _ ⟨_, deeper⟩ => deeper)

/-- From call to nested call the number of nodes at and below the node goes down. -/
theorem ComesBy.length_add_rank_le {base : Store} (acyclic : base.Acyclic)
    (comes : ComesBy levels path id start place node state) (since : base.Advances start.store) :
    place.length + base.rank node ≤ path.length + base.rank id := by
  induction comes with
  | here => exact Nat.le_refl _
  | @child levels path id start content before after early late held middle reached progress
      place node state found isOpen split earlier siblings _ ih =>
    have member : held ∈ content.children := by simp [Content.children, split]
    have lower : base.rank held < base.rank id :=
      acyclic.rank_lt (since.holds_iff.mp (Store.holds_iff.mpr ⟨content, found, member⟩))
    have deeper := ih (since.trans (advances_before earlier siblings).store)
    have pushed : (path.push id).length = path.length + 1 := rfl
    omega

/-! ## Passes and runs with a number of levels -/

/-- A pass whose walks have so many levels each; `none` says that one of them needed more. -/
def passLevels (levels : Nat) (resolution : Resolution) : Option (Progress × Resolution) :=
  resolveAll (resolveWithin levels .empty) resolution.modules resolution.opening

/-- Passes whose walks have so many levels each, until one leaves nothing open. -/
def passesLevels (levels : Nat) : Nat → Resolution → Option (Progress × Resolution)
  | 0, resolution => some (.pending, resolution)
  | count + 1, resolution => do
    let (progress, resolution) ← resolution.passLevels levels
    match progress with
    | .done => return (.done, resolution)
    | .pending => passesLevels levels count resolution

/-- A run whose walks have so many levels each. -/
def runLevels (levels : Nat) (resolution : Resolution) : Option (Outcome × Resolution) := do
  let (progress, last) ← passesLevels levels (max resolution.budget.maxPasses 1) resolution
  let final := last.conclude progress
  return (⟨final.passes, final.status progress⟩, final)

/-- Nothing that is asked of the resolution or its store takes more than so many levels. -/
structure EndsWithin (resolution : Resolution) (levels : Nat) : Prop where
  resolve : ∀ path id,
    resolveWithin levels path id resolution = some (resolution.resolve path id)
  pass : resolution.passLevels levels = some resolution.pass
  run : resolution.runLevels levels = some resolution.run
  traverse : ∀ descends id,
    (resolution.store.traverseWithin descends levels .child id #[]).map Array.toList =
      some (resolution.store.traverse descends id)
  listing : ∀ names id writer,
    Listing.emitWithin resolution.store names levels .child 0 id writer =
      some (resolution.store.emitListing names id writer)

theorem passLevels_eq (acyclic : resolution.store.Acyclic) (extra : Nat) :
    resolution.passLevels (resolution.store.size + 1 + extra) = some resolution.pass := by
  have visits := (pass_visits acyclic).imp fun _ _ _ _ _ walked => walked.add extra
  exact resolveAll_of_visitsAll visits

theorem passesLevels_eq (acyclic : resolution.store.Acyclic) (extra count : Nat) :
    passesLevels (resolution.store.size + 1 + extra) count resolution =
      some (passesWithin count resolution) := by
  induction count generalizing resolution with
  | zero => rfl
  | succ count ih =>
    have advances := pass_advances acyclic
    have rest := ih (advances.store.acyclic acyclic)
    rw [advances.store.size_eq] at rest
    unfold passesLevels passesWithin
    rw [passLevels_eq acyclic]
    cases passed : resolution.pass with
    | mk progress after =>
      rw [passed] at rest
      cases progress with
      | done => rfl
      | pending => exact rest

theorem runLevels_eq (acyclic : resolution.store.Acyclic) (extra : Nat) :
    resolution.runLevels (resolution.store.size + 1 + extra) = some resolution.run := by
  unfold runLevels
  rw [passesLevels_eq acyclic]
  exact congrArg some (run_eq rfl).symm

/-- A number of levels above the size of the store is enough. -/
theorem endsWithin (acyclic : resolution.store.Acyclic) (enough : resolution.store.size < levels) :
    resolution.EndsWithin levels := by
  obtain ⟨extra, rfl⟩ := Nat.exists_eq_add_of_lt enough
  rw [Nat.add_right_comm]
  have deep : ∀ id, resolution.store.rank id < resolution.store.size + 1 :=
    fun id => Nat.lt_succ_of_le (resolution.store.rank_le_size id)
  refine ⟨?_, passLevels_eq acyclic extra, runLevels_eq acyclic extra, ?_, ?_⟩
  · intro path id
    exact (walks_resolve acyclic (.refl _) path id).add extra
  · intro descends id
    obtain ⟨met, meets⟩ : ∃ met, resolution.store.traverseWithin descends
        (resolution.store.size + 1) .child id #[] = some met :=
      Store.exists_traverseWithin acyclic (deep id) .child #[]
    rw [Store.traverseWithin_add acyclic (deep id), Store.traverse, meets]
    rfl
  · intro names id writer
    obtain ⟨written, writes⟩ : ∃ written, Listing.emitWithin resolution.store names
        (resolution.store.size + 1) .child 0 id writer = some written :=
      Listing.exists_emitWithin acyclic (deep id) .child 0 writer
    rw [Listing.emitWithin_add acyclic (deep id), Store.emitListing, writes]
    rfl

/-- After any calls, whatever is asked next ends, and a number of levels above the size of the store
is never used up. The calls of a walk are nested at most one deeper than the store has nodes. -/
theorem afterAll_endsWithin (acyclic : resolution.store.Acyclic) (calls : List Call) :
    (∀ levels, resolution.store.size < levels → (resolution.afterAll calls).EndsWithin levels) ∧
    (∀ {levels path id place node state},
      ComesBy levels path id (resolution.afterAll calls) place node state →
        place.length + 1 ≤ path.length + (resolution.store.size + 1)) ∧
    ∀ {place node state}, (resolution.afterAll calls).PassesBy place node state →
      place.length + 1 ≤ resolution.store.size + 1 := by
  have reached := (stable_advances acyclic).afterAll (.refl resolution) calls
  have acyclicThere := reached.store.acyclic acyclic
  have nested : ∀ {levels path id start place node state},
      ComesBy levels path id start place node state → resolution.store.Advances start.store →
        place.length + 1 ≤ path.length + (resolution.store.size + 1) := by
    intro levels path id start place node state comes since
    have bound := comes.length_add_rank_le acyclic since
    have small := resolution.store.rank_le_size id
    omega
  refine ⟨?_, ?_, ?_⟩
  · intro levels enough
    rw [← reached.store.size_eq] at enough
    exact endsWithin acyclicThere enough
  · intro levels path id place node state comes
    exact nested comes reached.store
  · rintro place node state ⟨early, id, late, -, comes⟩
    have since := reached.trans (advances_resolveModules acyclicThere early)
    have bound := nested comes since.store
    simpa [Path.length, Path.empty] using bound

/-- A cover that is made of itself, in two modules that import each other. The first module lists it
twice, and the second lists a missing node beside it. -/
def tangled : Resolution :=
  withBudget
    (ofModules
      ⟨#[⟨.typeRef { name := ⟨1⟩ }, ⟨16, 20⟩⟩,
        ⟨.cover { header := { name := ⟨1⟩ }, fromType := some ⟨0⟩ }, ⟨0, 20⟩⟩,
        ⟨.module
          { name := ⟨2⟩
            declarations := [⟨1⟩, ⟨1⟩]
            imports := [⟨3⟩]
            symbols := [(⟨1⟩, ⟨1⟩)] }, ⟨0, 20⟩⟩,
        ⟨.module { name := ⟨3⟩, declarations := [⟨1⟩, ⟨9⟩], imports := [⟨2⟩] }, ⟨21, 40⟩⟩]⟩
      (.ofTexts ["Knot", "main", "lib"]) [⟨2⟩, ⟨3⟩])
    ⟨3⟩

/-- A module with a missing node and nothing else. -/
def hollow : Resolution :=
  ofModules ⟨#[⟨.module { name := ⟨1⟩, declarations := [⟨1⟩] }, ⟨0, 6⟩⟩]⟩
    (.ofTexts ["main"]) [⟨0⟩]

/-- The run ends, although the cover is never resolved. The one node of the hollow module needs two
levels, so a number of levels that is not above the size of the store may be used up. -/
theorem afterAll_endsWithin_tangled :
    tangled.store.Acyclic ∧ hollow.store.Acyclic ∧
    tangled.runLevels 5 = some tangled.run ∧ tangled.run.1 = ⟨3, .failed⟩ ∧
    resolveWithin 2 .empty ⟨0⟩ hollow = some (hollow.resolve .empty ⟨0⟩) ∧
    resolveWithin 1 .empty ⟨0⟩ hollow = none := by
  have acyclic : tangled.store.Acyclic :=
    Store.acyclic_of_descending (fun id => if id.index < 4 then id.index + 1 else 0) (by decide)
  have acyclicHollow : hollow.store.Acyclic :=
    Store.acyclic_of_descending (fun id => if id.index < 1 then 1 else 0) (by decide)
  have ends := (afterAll_endsWithin acyclic []).1 5 (by decide)
  have endsHollow := (afterAll_endsWithin acyclicHollow []).1 2 (by decide)
  exact ⟨acyclic, acyclicHollow, ends.run, by decide, endsHollow.resolve .empty ⟨0⟩, rfl⟩

end Resolution

end Declarations
