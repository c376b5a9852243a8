import Declarations.Proofs.Lines
import Declarations.Proofs.Pages

/-!
# The layout of a listing

A listing is written through a writer that can indent lines by itself and by a depth that is handed
down. A module of plain declarations starts without either, so the listing is exactly the lines of
the module, one after another, and only the lines of members are indented, by one tab.
-/

namespace Declarations

/-! ## Writers without a depth of their own -/

namespace Writer

variable {writer : Writer}

theorem text_startLine (flat : writer.depth = 0) : writer.startLine.text = writer.text := by
  unfold startLine
  split
  · rw [text_emitIndent, flat]
    exact String.append_empty
  · rfl

@[simp] theorem text_emit (flat : writer.depth = 0) (text : String) :
    (writer.emit text).text = writer.text ++ text := by
  unfold emit
  split
  · rename_i empty
    rw [String.isEmpty_iff.mp empty, String.append_empty]
  · simp [text_startLine flat]

@[simp] theorem text_emitSpace (flat : writer.depth = 0) :
    writer.emitSpace.text = writer.text ++ " " := by
  unfold emitSpace
  simp [text_startLine flat]

end Writer

namespace Listing

variable {store : Store} {names : NameTable} {writer : Writer}

@[simp] theorem depth_emitForeign (names : NameTable) (header : Header) (writer : Writer) :
    (emitForeign names header writer).depth = writer.depth := by
  unfold emitForeign emitName
  split
  · split <;> simp
  · rfl

theorem text_emitForeign (flat : writer.depth = 0) (header : Header) :
    (emitForeign names header writer).text = writer.text ++ foreignText names header := by
  unfold emitForeign foreignText emitName
  by_cases isForeign : header.isForeign = true
  · cases header.foreignName <;> simp [isForeign, flat, String.append_assoc]
  · simp [isForeign]

@[simp] theorem depth_emitHead (names : NameTable) (depth : Nat) (header : Header)
    (keyword : String) (writer : Writer) :
    (emitHead names depth header keyword writer).depth = writer.depth := by
  simp [emitHead, emitName]

theorem text_emitHead (flat : writer.depth = 0) (depth : Nat) (header : Header)
    (keyword : String) :
    (emitHead names depth header keyword writer).text =
      writer.text ++ Writer.tabs depth ++ headText names header keyword := by
  simp [emitHead, emitName, headText, text_emitForeign, flat, String.append_assoc]

/-- A path is written with points between its names. -/
theorem text_emitPath (flat : writer.depth = 0) (path : List Name) :
    (emitPath names path writer).depth = 0 ∧
      (emitPath names path writer).text =
        writer.text ++ ".".intercalate (path.map names.text) := by
  fun_induction emitPath names path writer with
  | case1 writer => simp [flat]
  | case2 name writer => simp [emitName, flat]
  | case3 name rest writer more ih =>
    obtain ⟨flatRest, textRest⟩ := ih (by simp [emitName, flat])
    refine ⟨flatRest, ?_⟩
    rw [textRest, List.map_cons, String.intercalate_cons_of_ne_nil]
    · simp [emitName, flat, String.append_assoc]
    · simpa using more

/-- Each import is written on a line. -/
theorem text_foldl_emitImport (flat : writer.depth = 0) (imports : List Name) :
    (imports.foldl (fun writer imported => emitImport names 0 imported writer) writer).depth = 0 ∧
      (imports.foldl (fun writer imported => emitImport names 0 imported writer) writer).text =
        writer.text ++
          textOf (imports.map fun imported => .outer ("import " ++ names.text imported)) := by
  induction imports generalizing writer with
  | nil => simp [flat, textOf]
  | cons imported rest ih =>
    obtain ⟨flatRest, textRest⟩ := @ih (emitImport names 0 imported writer)
      (by simp [emitImport, emitName, flat])
    refine ⟨flatRest, ?_⟩
    rw [List.foldl_cons, textRest]
    simp [emitImport, emitName, flat, textOf, Line.text, Writer.tabs, String.append_assoc]

/-! ## What is written for a node -/

/-- The part is written: a writer without a depth of its own gets the text after what it has. -/
def Writes (part : Writer → Option Writer) (text : String) : Prop :=
  ∀ writer, writer.depth = 0 →
    ∃ written, part writer = some written ∧ written.depth = 0 ∧ written.text = writer.text ++ text

/-- The lines of members are written one after another if those of each are. -/
theorem writes_foldlM {members : List NodeId} {part : Writer → NodeId → Option Writer}
    {lines : NodeId → List Line}
    (each : ∀ id ∈ members, Writes (fun writer => part writer id) (textOf (lines id))) :
    Writes (members.foldlM part) (textOf (members.flatMap lines)) := by
  induction members with
  | nil => exact fun writer flat => ⟨writer, rfl, flat, String.append_empty.symm⟩
  | cons id rest ih =>
    intro writer flat
    obtain ⟨first, writes, flatFirst, textFirst⟩ := each id List.mem_cons_self writer flat
    obtain ⟨written, writesRest, flatRest, textRest⟩ :=
      ih (fun other inRest => each other (List.mem_cons_of_mem id inRest)) first flatFirst
    refine ⟨written, by simp [writes, writesRest], flatRest, ?_⟩
    rw [textRest, textFirst, List.flatMap_cons, textOf_append, String.append_assoc]

theorem emitWithin_of_admits {id : NodeId} {content : Content} {slot : Slot}
    (found : store.content? id = some content) (admits : slot.admits content.kind = true)
    (levels depth : Nat) :
    emitWithin store names (levels + 1) slot depth id =
      emitContent names (emitWithin store names levels) depth content := by
  funext writer
  simp only [emitWithin, found, admits, if_true]

/-- Literals and references are written as they are. -/
theorem writes_leaf {id : NodeId} {content : Content} (found : store.content? id = some content)
    (leaf : content.kind.isLeaf = true) (levels depth : Nat) :
    Writes (emitWithin store names (levels + 1) .child depth id) (leafText names content) := by
  intro writer flat
  cases content with
  | literal value =>
    rw [emitWithin_of_admits found rfl]
    exact ⟨writer.emit (value.render names), rfl, by simp [flat, leafText]⟩
  | typeRef data =>
    rw [emitWithin_of_admits found rfl]
    exact ⟨writer.emit (names.text data.name), rfl, by simp [flat, leafText]⟩
  | nameRef data =>
    rw [emitWithin_of_admits found rfl]
    exact ⟨emitPath names data.path writer, rfl, text_emitPath flat data.path⟩
  | module | cover | enum | element | «variable» => cases leaf

/-- What a place holds is written after its lead. -/
theorem writes_held (names : NameTable) {held : Option NodeId} {levels : Nat}
    (leaf : ∀ id ∈ held.toList, (store.kind? id).any Kind.isLeaf = true)
    (enough : ∀ id ∈ held.toList, store.rank id < levels) (depth : Nat) (lead : String) :
    Writes (emitHeld (emitWithin store names levels) depth lead held)
      (heldText store names lead held) := by
  intro writer flat
  cases held with
  | none => exact ⟨writer, rfl, flat, String.append_empty.symm⟩
  | some id =>
    obtain ⟨kind, known, isLeaf⟩ := (Option.any_eq_true _ _).mp (leaf id (by simp))
    obtain ⟨content, found, rfl⟩ := Option.map_eq_some_iff.mp known
    obtain ⟨below, rfl⟩ : ∃ below, levels = below + 1 :=
      Nat.exists_eq_add_one_of_ne_zero (Nat.ne_zero_of_lt (enough id (by simp)))
    obtain ⟨written, writes, flatWritten, textWritten⟩ :=
      @writes_leaf store names id content found isLeaf below depth (writer.emit lead)
        (by simp [flat])
    refine ⟨written, writes, flatWritten, ?_⟩
    simp [textWritten, flat, heldText, found, String.append_assoc]

/-- A member is written on an indented line. -/
theorem writes_member {id : NodeId} {levels : Nat} (plain : store.Plain names id)
    (known : store.kind? id = some .element) (enough : store.rank id < levels) :
    Writes (emitWithin store names levels .member 1 id) (textOf (memberLines store names id)) := by
  obtain ⟨levels, rfl⟩ : ∃ below, levels = below + 1 :=
    Nat.exists_eq_add_one_of_ne_zero (Nat.ne_zero_of_lt enough)
  obtain ⟨content, found, isElement⟩ := Option.map_eq_some_iff.mp known
  cases content with
  | element data =>
    have fits : store.Fits (.element data) := plain.fits .refl found
    have below : ∀ value ∈ data.value.toList, store.rank value < levels := by
      intro value valued
      have lower := plain.rank_lt found (Content.mem_children_element.mpr valued)
      omega
    have tab : Writer.tabs 1 = "\t" := by decide
    intro writer flat
    rw [emitWithin_of_admits found rfl]
    obtain ⟨valued, writes, flatValued, textValued⟩ := writes_held names fits below 1 " = "
      (emitHead names 1 data.header "" writer) (by simp [flat])
    refine ⟨valued.emitNewline, by simp [emitContent, writes], flatValued, ?_⟩
    simp [textValued, text_emitHead flat, tab, memberLines, Store.element?, found, Line.text,
      elementText, String.append_assoc]
  | module | cover | enum | «variable» | literal | typeRef | nameRef => cases isElement

/-- A declaration of a module is written on its lines. -/
theorem writes_declaration {id : NodeId} {levels : Nat} (plain : store.Plain names id)
    (declares : (store.kind? id).any Kind.isDeclaration = true) (enough : store.rank id < levels) :
    Writes (emitWithin store names levels .child 0 id)
      (textOf (declarationLines store names id)) := by
  obtain ⟨levels, rfl⟩ : ∃ below, levels = below + 1 :=
    Nat.exists_eq_add_one_of_ne_zero (Nat.ne_zero_of_lt enough)
  obtain ⟨kind, known, isDeclaration⟩ := (Option.any_eq_true _ _).mp declares
  obtain ⟨content, found, rfl⟩ := Option.map_eq_some_iff.mp known
  have fits := plain.fits .refl found
  have below : ∀ {child}, child ∈ content.children → store.rank child < levels := by
    intro child held
    have lower := plain.rank_lt found held
    omega
  have flush : Writer.tabs 0 = "" := by decide
  intro writer flat
  unfold declarationLines
  rw [found]
  cases content with
  | cover data =>
    have writesType := writes_held names
      (fun type typed => Store.isLeaf_of_typeRef (fits type typed))
      (fun type typed => below (Content.mem_children_cover.mpr typed))
    rw [emitWithin_of_admits found rfl]
    obtain ⟨typed, writes, flatTyped, textTyped⟩ := writesType 0 " from "
      (emitHead names 0 data.header "cover " writer) (by simp [flat])
    refine ⟨typed.emitNewline, by simp [emitContent, writes], flatTyped, ?_⟩
    simp [textTyped, text_emitHead flat, flush, Line.text, String.append_assoc]
  | enum data =>
    have writesType := writes_held names
      (fun type typed => Store.isLeaf_of_typeRef (fits.1 type typed))
      (fun type typed => below (Content.mem_children_enum.mpr (.inr typed)))
    have writesMembers := writes_foldlM fun member listed =>
      have held := Content.mem_children_enum.mpr (.inl listed)
      writes_member (plain.below found held) (fits.2 member listed) (below held)
    rw [emitWithin_of_admits found rfl]
    obtain ⟨typed, writes, flatTyped, textTyped⟩ := writesType 0 " from "
      (emitHead names 0 data.header "enum " writer) (by simp [flat])
    obtain ⟨listed, lists, flatListed, textListed⟩ := writesMembers
      ((typed.emit (incrementText data.increment)).emit " \x7b").emitNewline (by simp [flatTyped])
    refine ⟨((listed.emitIndent 0).emit "\x7d").emitNewline, by simp [emitContent, writes, lists],
      by simp [flatListed], ?_⟩
    simp [flatListed, textListed, flatTyped, textTyped, text_emitHead flat, flush, Line.text,
      String.append_assoc]
  | «variable» data =>
    have writesType := writes_held names
      (fun type typed => Store.isLeaf_of_typeRef (fits.1 type typed))
      (fun type typed => below (Content.mem_children_variable.mpr (.inl typed)))
    have writesValue := writes_held names fits.2
      (fun value valued => below (Content.mem_children_variable.mpr (.inr valued)))
    rw [emitWithin_of_admits found rfl]
    obtain ⟨typed, writes, flatTyped, textTyped⟩ := writesType 0 ": "
      (emitHead names 0 data.header "var " writer) (by simp [flat])
    obtain ⟨valued, writesRest, flatValued, textValued⟩ := writesValue 0 " = " typed flatTyped
    refine ⟨valued.emitNewline, by simp [emitContent, writes, writesRest], flatValued, ?_⟩
    simp [textValued, textTyped, text_emitHead flat, flush, Line.text, String.append_assoc]
  | element data =>
    refine ⟨writer, ?_, flat, String.append_empty.symm⟩
    simp [emitWithin, found, Slot.admits, Content.kind]
  | module | literal | typeRef | nameRef => cases isDeclaration

/-- A module is written on its lines. -/
theorem writes_module {id : NodeId} {scope : Module} {levels : Nat} (plain : store.Plain names id)
    (found : store.content? id = some (.module scope)) (enough : store.rank id < levels + 1) :
    Writes (emitWithin store names (levels + 1) .child 0 id)
      (textOf (moduleLines store names scope)) := by
  have fits : store.Fits (.module scope) := plain.fits .refl found
  have writesDeclarations : Writes (scope.declarations.foldlM
      fun writer id => emitWithin store names levels .child 0 id writer)
      (textOf (scope.declarations.flatMap (declarationLines store names))) := by
    apply writes_foldlM
    intro declared member
    have held := Content.mem_children_module.mpr member
    have lower := plain.rank_lt found held
    exact writes_declaration (plain.below found held) (fits declared member) (by omega)
  have flush : Writer.tabs 0 = "" := by decide
  intro writer flat
  rw [emitWithin_of_admits found rfl]
  have headed : ((emitName names scope.name
      ((writer.emitIndent 0).emit "module ")).emitNewline).depth = 0 := by
    simp [emitName, flat]
  obtain ⟨flatImported, textImported⟩ := @text_foldl_emitImport names _ headed scope.imports
  obtain ⟨written, writes, flatWritten, textWritten⟩ := writesDeclarations _ flatImported
  refine ⟨written, writes, flatWritten, ?_⟩
  rw [textWritten, textImported]
  simp [moduleLines, emitName, flat, flush, Line.text, String.append_assoc]

/-! ## The listing of a module -/

/-- The listing of a module is made of its lines. They are as many as there are line ends: one for
the module, one for each import, and those of its declarations. The lines of members are indented by
one tab, no other line is, and each member that has a value is shown with it on its own line. -/
structure LaidOut (store : Store) (names : NameTable) (id : NodeId) (scope : Module) : Prop where
  text : store.listing names id = textOf (moduleLines store names scope)
  tidy : ∀ line ∈ moduleLines store names scope, line.Tidy
  length : (moduleLines store names scope).length =
    1 + scope.imports.length + (scope.declarations.map (lineCount store)).sum
  lineEnds : (store.listing names id).toList.count '\n' =
    1 + scope.imports.length + (scope.declarations.map (lineCount store)).sum
  valued : ∀ declared ∈ scope.declarations, ∀ data, store.enum? declared = some data →
    ∀ (k : Nat) (member value : NodeId) (element : Element), data.members.ids[k]? = some member →
      store.element? member = some element → element.value = some value →
        ∃ content, store.content? value = some content ∧
          (declarationLines store names declared)[k + 1]? = some
            (.member (headText names element.header "" ++ " = " ++ leafText names content))

end Listing

namespace Store

/-- A module of plain declarations is laid out line by line. -/
theorem listing_laidOut {store : Store} {names : NameTable} {id : NodeId} {scope : Module}
    (isModule : store.module? id = some scope) (plain : store.Plain names id) :
    Listing.LaidOut store names id scope := by
  have found := module?_eq_some_iff.mp isModule
  have enough : store.rank id < store.size + 1 := Nat.lt_succ_of_le (store.rank_le_size id)
  obtain ⟨written, writes, -, textWritten⟩ := Listing.writes_module plain found enough .new rfl
  have text : store.listing names id = Listing.textOf (Listing.moduleLines store names scope) := by
    rw [listing, emitListing, writes, Option.getD_some, textWritten]
    exact String.empty_append
  have tidy := Listing.tidy_of_mem_moduleLines plain found
  have length := Listing.length_moduleLines plain found
  refine ⟨text, tidy, length, ?_, ?_⟩
  · rw [text, Listing.count_textOf tidy, length]
  · intro declared member data isEnum k inside value element stands isElement hasValue
    have plainDeclared := plain.below found (Content.mem_children_module.mpr member)
    exact Listing.getElem?_declarationLines plainDeclared isEnum stands isElement hasValue

/-- A module with an import and every kind of declaration: a cover, a foreign cover, an enumeration
with a step of its own, whose last member is foreign and has no value, a variable with a text of two
lines, a variable without a type, and an element outside its enumeration. -/
def assortment : Store :=
  ⟨#[⟨.typeRef { name := ⟨3⟩ }, .nowhere⟩,
    ⟨.cover { header := { name := ⟨4⟩ }, fromType := some ⟨0⟩ }, .nowhere⟩,
    ⟨.cover { header := .foreign ⟨5⟩ (some ⟨6⟩) }, .nowhere⟩,
    ⟨.typeRef { name := ⟨7⟩ }, .nowhere⟩,
    ⟨.literal (.int 1), .nowhere⟩,
    ⟨.element { header := { name := ⟨8⟩ }, value := some ⟨4⟩, valueSet := true }, .nowhere⟩,
    ⟨.literal (.int 2), .nowhere⟩,
    ⟨.element { header := { name := ⟨9⟩ }, value := some ⟨6⟩ }, .nowhere⟩,
    ⟨.element { header := .foreign ⟨10⟩ (some ⟨11⟩) }, .nowhere⟩,
    ⟨.enum
      { header := { name := ⟨12⟩ }
        members := ⟨#[(⟨8⟩, ⟨5⟩), (⟨9⟩, ⟨7⟩), (⟨10⟩, ⟨8⟩)],
          ((Std.TreeMap.empty.insert 8 0).insert 9 1).insert 10 2⟩
        underlying := .explicit ⟨3⟩
        lastValue := ⟨6⟩
        increment := ⟨.mul, 2⟩ }, .nowhere⟩,
    ⟨.typeRef { name := ⟨13⟩ }, .nowhere⟩,
    ⟨.literal (.str ⟨14⟩), .nowhere⟩,
    ⟨.variable { header := { name := ⟨15⟩ }, type := some ⟨10⟩, value := some ⟨11⟩ }, .nowhere⟩,
    ⟨.nameRef { path := [⟨12⟩, ⟨9⟩] }, .nowhere⟩,
    ⟨.variable { header := { name := ⟨16⟩ }, value := some ⟨13⟩ }, .nowhere⟩,
    ⟨.element { header := { name := ⟨8⟩ } }, .nowhere⟩,
    ⟨.module
      { name := ⟨1⟩
        declarations := [⟨1⟩, ⟨2⟩, ⟨9⟩, ⟨12⟩, ⟨14⟩, ⟨15⟩]
        imports := [⟨2⟩] }, .nowhere⟩]⟩

/-- The names of the module and of its declarations, and a text of two lines. -/
def assortmentNames : NameTable :=
  .ofTexts ["main", "lib", "Pointer", "Handle", "File", "FILE", "Int", "Read", "Write", "Seek",
    "seek_set", "Flags", "String", "two\nlines", "greeting", "mode"]

theorem listing_laidOut_assortment :
    assortment.Plain assortmentNames ⟨16⟩ ∧
    ¬ OneLine (assortmentNames.text ⟨14⟩) ∧
    (assortment.listing assortmentNames ⟨16⟩).toList.count '\n' = 11 ∧
    assortment.listing assortmentNames ⟨16⟩ = Listing.textOf
      [.outer "module main",
        .outer "import lib",
        .outer "cover Handle from Pointer",
        .outer "extern(FILE) cover File",
        .outer "enum Flags from Int (*2) \x7b",
        .member "Read = 1",
        .member "Write = 2",
        .member "extern(seek_set) Seek",
        .outer "\x7d",
        .outer "var greeting: String = \"two\\nlines\"",
        .outer "var mode = Flags.Write"] := by
  have plain : assortment.Plain assortmentNames ⟨16⟩ := .of_all (by decide) (by decide +kernel) ⟨16⟩
  have laidOut := listing_laidOut (rfl : assortment.module? ⟨16⟩ = some _) plain
  refine ⟨plain, by decide, laidOut.lineEnds.trans (by decide), laidOut.text.trans ?_⟩
  exact congrArg Listing.textOf (by decide)

end Store

end Declarations
