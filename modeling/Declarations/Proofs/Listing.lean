import Declarations.Output.Listing
import Declarations.Proofs.Footprint
import Declarations.Proofs.Traversal

/-!
# Listings and marks

A listing shows what an author wrote. It reads names, foreign names, members, rules and values, and
no mark: the content of a node and the content without its marks are written alike. A resolution
leaves nothing but marks, so whatever is asked of it, every node is listed as it was at the start.
Where no node is below itself, the levels that a listing allows are enough and nothing is cut off.
-/

namespace Declarations

@[simp] theorem Content.kind_bare (content : Content) : content.bare.kind = content.kind := by
  cases content <;> rfl

namespace Listing

variable {names : NameTable} {visit : Slot → Nat → NodeId → Writer → Option Writer}

/-! ## A listing shows no marks -/

@[simp] theorem emitForeign_outline (names : NameTable) (header : Header) (writer : Writer) :
    emitForeign names header.outline writer = emitForeign names header writer := rfl

@[simp] theorem emitHead_outline (names : NameTable) (depth : Nat) (header : Header)
    (keyword : String) (writer : Writer) :
    emitHead names depth header.outline keyword writer =
      emitHead names depth header keyword writer := by
  unfold emitHead
  rw [emitForeign_outline]
  rfl

/-- A node is written like the node without its marks. -/
theorem emitContent_bare (names : NameTable)
    (visit : Slot → Nat → NodeId → Writer → Option Writer) (depth : Nat) (content : Content)
    (writer : Writer) :
    emitContent names visit depth content.bare writer =
      emitContent names visit depth content writer := by
  cases content with
  | cover data | enum data | element data | «variable» data =>
    simp only [Content.bare, Content.outline, Content.mapHeader, emitContent, emitHead_outline]
  | module data | literal value | typeRef data | nameRef data => rfl

/-- Stores whose nodes differ in marks alone are listed alike, to any depth. -/
theorem emitWithin_eq {first second : Store}
    (bare : ∀ id, (second.content? id).map Content.bare = (first.content? id).map Content.bare)
    (levels : Nat) : emitWithin second names levels = emitWithin first names levels := by
  induction levels with
  | zero => rfl
  | succ levels ih =>
    funext slot depth id writer
    have same := bare id
    unfold emitWithin
    cases foundFirst : first.content? id with
    | none =>
      rw [foundFirst] at same
      rw [Option.map_eq_none_iff.mp same]
    | some content =>
      rw [foundFirst] at same
      obtain ⟨later, foundSecond, bareLater⟩ := Option.map_eq_some_iff.mp same
      have kinds : later.kind = content.kind := by
        rw [← Content.kind_bare, bareLater, Content.kind_bare]
      have written : ∀ visit, emitContent names visit depth later writer =
          emitContent names visit depth content writer := by
        intro visit
        rw [← emitContent_bare, bareLater, emitContent_bare]
      simp only [foundSecond, kinds, written, ih]

/-! ## A listing is not cut off -/

/-- What is written for every member of a list is written for the list. -/
theorem exists_foldlM {α β : Type} {members : List α} {part : β → α → Option β}
    (each : ∀ member ∈ members, ∀ state, ∃ written, part state member = some written) (state : β) :
    ∃ written, members.foldlM part state = some written := by
  induction members generalizing state with
  | nil => exact ⟨state, rfl⟩
  | cons member rest ih =>
    obtain ⟨first, writes⟩ := each member List.mem_cons_self state
    obtain ⟨written, writesRest⟩ :=
      ih (fun other inRest => each other (List.mem_cons_of_mem member inRest)) first
    exact ⟨written, by simp [writes, writesRest]⟩

theorem exists_emitHeld {held : Option NodeId} (depth : Nat) (lead : String)
    (each : ∀ id ∈ held.toList, ∀ writer, ∃ written, visit .child depth id writer = some written)
    (writer : Writer) : ∃ written, emitHeld visit depth lead held writer = some written := by
  cases held with
  | none => exact ⟨writer, rfl⟩
  | some id => exact each id (by simp) (writer.emit lead)

/-- A node is written if all that a traversal comes by in it is. -/
theorem exists_emitContent {content : Content}
    (each : ∀ slot id, (slot, id) ∈ content.slots → ∀ depth writer,
      ∃ written, visit slot depth id writer = some written) (depth : Nat) (writer : Writer) :
    ∃ written, emitContent names visit depth content writer = some written := by
  cases content with
  | module data =>
    refine exists_foldlM (fun id member => each .child id ?_ depth) _
    simp [Content.slots, member]
  | cover data =>
    obtain ⟨typed, writes⟩ := exists_emitHeld depth " from "
      (fun id member => each .child id (by simpa [Content.slots] using member) depth)
      (emitHead names depth data.header "cover " writer)
    exact ⟨typed.emitNewline, by simp [emitContent, writes]⟩
  | enum data =>
    obtain ⟨typed, writesType⟩ := exists_emitHeld depth " from "
      (fun id member => each .child id (by simpa [Content.slots] using member) depth)
      (emitHead names depth data.header "enum " writer)
    obtain ⟨listed, writesMembers⟩ := exists_foldlM
      (fun id member => each .member id (by simpa [Content.slots] using member) (depth + 1))
      ((typed.emit (incrementText data.increment)).emit " \x7b").emitNewline
    exact ⟨((listed.emitIndent depth).emit "\x7d").emitNewline,
      by simp [emitContent, writesType, writesMembers]⟩
  | element data =>
    obtain ⟨valued, writes⟩ := exists_emitHeld depth " = "
      (fun id member => each .child id (by simpa [Content.slots] using member) depth)
      (emitHead names depth data.header "" writer)
    exact ⟨valued.emitNewline, by simp [emitContent, writes]⟩
  | «variable» data =>
    obtain ⟨typed, writesType⟩ := exists_emitHeld depth ": "
      (fun id member => each .child id (List.mem_append_left _ (by simpa using member)) depth)
      (emitHead names depth data.header "var " writer)
    obtain ⟨valued, writesValue⟩ := exists_emitHeld depth " = "
      (fun id member => each .child id (List.mem_append_right _ (by simpa using member)) depth)
      typed
    exact ⟨valued.emitNewline, by simp [emitContent, writesType, writesValue]⟩
  | literal value | typeRef data | nameRef data => exact ⟨_, rfl⟩

/-- A listing that may go deeper than its node has nodes below it is written in full. -/
theorem exists_emitWithin {store : Store} (acyclic : store.Acyclic) {levels : Nat} {id : NodeId}
    (enough : store.rank id < levels) (slot : Slot) (depth : Nat) (writer : Writer) :
    ∃ written, emitWithin store names levels slot depth id writer = some written := by
  induction levels generalizing slot depth id writer with
  | zero => omega
  | succ levels ih =>
    unfold emitWithin
    cases found : store.content? id with
    | none => exact ⟨writer, rfl⟩
    | some content =>
      by_cases admits : slot.admits content.kind = true
      · simp only [admits, if_true]
        apply exists_emitContent
        intro slot child member depth writer
        have lower : store.rank child < store.rank id :=
          acyclic.rank_lt_of_mem_slots found member
        exact ih (by omega) slot depth writer
      · exact ⟨writer, by simp [admits]⟩

end Listing

namespace Store

theorem Footprint.emitListing_eq {first second : Store} (footprint : first.Footprint second)
    (names : NameTable) (id : NodeId) (writer : Writer) :
    second.emitListing names id writer = first.emitListing names id writer := by
  unfold emitListing
  rw [footprint.size, Listing.emitWithin_eq footprint.bare]

end Store

namespace Resolution

variable {resolution : Resolution}

/-- The listing of any node, with any names, is written in full, and no calls change it. -/
theorem listing_unmoved (acyclic : resolution.store.Acyclic) (names : NameTable) (id : NodeId)
    (calls : List Call) :
    ∃ written, Listing.emitWithin resolution.store names (resolution.store.size + 1) .child 0 id
        .new = some written ∧
      resolution.store.listing names id = written.text ∧
      (resolution.afterAll calls).store.listing names id = written.text := by
  have enough : resolution.store.rank id < resolution.store.size + 1 :=
    Nat.lt_succ_of_le (resolution.store.rank_le_size id)
  obtain ⟨written, writes⟩ : ∃ written, Listing.emitWithin resolution.store names
      (resolution.store.size + 1) .child 0 id .new = some written :=
    Listing.exists_emitWithin acyclic enough .child 0 .new
  have listed : resolution.store.listing names id = written.text := by
    simp [Store.listing, Store.emitListing, writes]
  have footprint := ((stable_advances acyclic).afterAll (.refl resolution) calls).store.footprint
  refine ⟨written, writes, listed, ?_⟩
  rw [← listed, Store.listing, Store.listing, footprint.emitListing_eq]

/-- The module is listed as its author wrote it, also when the variable has been given up and the
cover is resolved. -/
theorem listing_unmoved_halfSettled :
    halfSettled.store.Acyclic ∧
    (halfSettled.afterAll [.pass, .resolve .empty ⟨4⟩, .run]).store.isGivenUp ⟨0⟩ = true ∧
    (halfSettled.afterAll [.pass, .resolve .empty ⟨4⟩, .run]).store.isResolved ⟨3⟩ = true ∧
    (halfSettled.afterAll [.pass, .resolve .empty ⟨4⟩, .run]).store.listing halfSettled.names ⟨4⟩ =
      "module main\nvar width: width\ncover Count from Int\n" := by
  have acyclic : halfSettled.store.Acyclic := Store.acyclic_of_earlier (by decide)
  obtain ⟨written, -, before, after⟩ :=
    listing_unmoved acyclic halfSettled.names ⟨4⟩ [.pass, .resolve .empty ⟨4⟩, .run]
  refine ⟨acyclic, by decide, by decide, ?_⟩
  rw [after, ← before]
  decide

end Resolution

end Declarations
