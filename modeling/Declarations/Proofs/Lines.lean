import Declarations.Output.Listing
import Declarations.Proofs.Forest
import Declarations.Proofs.Registration
import Declarations.Proofs.Rendering

/-!
# The lines of a module

A declaration is plain if each of its places is filled with what it is for. The lines of a module of
plain declarations are given here as texts: its own line, a line for each import, one for each cover
and variable, and for an enumeration a line that opens it, a line for each member and a line that
closes it. None of these lines is broken by what stands on it.
-/

namespace Declarations

open Relation (ReflTransGen)

/-! ## Plain declarations -/

/-- How many levels of nodes a node of a kind has below it at most, where every place is filled with
what it is for. -/
def Kind.height : Kind → Nat
  | .module => 3
  | .cover | .enum | .variable => 2
  | .element => 1
  | .literal | .typeRef | .nameRef => 0

theorem Kind.height_of_isLeaf {kind : Kind} (leaf : kind.isLeaf = true) : kind.height = 0 := by
  cases kind with
  | literal | typeRef | nameRef => rfl
  | module | cover | enum | element | «variable» => cases leaf

theorem Kind.height_of_isDeclaration {kind : Kind} (declares : kind.isDeclaration = true) :
    kind.height ≤ 2 := by
  cases kind with
  | cover | enum | element | «variable» => decide
  | module | literal | typeRef | nameRef => cases declares

/-- The names that a declaration shows: its own, and a foreign one if it is foreign. -/
def Header.shownNames (header : Header) : List Name :=
  header.name :: if header.isForeign then header.foreignName.toList else []

/-- The names that a node shows. The text of a string is no name. -/
def Content.shownNames : Content → List Name
  | .module data => data.name :: data.imports
  | .cover data => data.header.shownNames
  | .enum data => data.header.shownNames
  | .element data => data.header.shownNames
  | .variable data => data.header.shownNames
  | .literal _ => []
  | .typeRef data => [data.name]
  | .nameRef data => data.path

namespace Store

variable {store : Store} {names : NameTable} {id child : NodeId} {content : Content}

/-- Every place of a node is filled, if at all, with what it is for: declarations in a module,
elements in an enumeration, references to types, and literals or references as values. -/
def Fits (store : Store) : Content → Prop
  | .module data => ∀ id ∈ data.declarations, (store.kind? id).any Kind.isDeclaration = true
  | .cover data => ∀ id ∈ data.fromType.toList, store.kind? id = some .typeRef
  | .enum data =>
    (∀ id ∈ data.underlying.explicit?.toList, store.kind? id = some .typeRef) ∧
      ∀ id ∈ data.members.ids, store.kind? id = some .element
  | .element data => ∀ id ∈ data.value.toList, (store.kind? id).any Kind.isLeaf = true
  | .variable data =>
    (∀ id ∈ data.type.toList, store.kind? id = some .typeRef) ∧
      ∀ id ∈ data.value.toList, (store.kind? id).any Kind.isLeaf = true
  | .literal _ | .typeRef _ | .nameRef _ => True

instance (store : Store) : DecidablePred store.Fits
  | .module data => inferInstanceAs (Decidable (∀ id ∈ data.declarations, _))
  | .cover data => inferInstanceAs (Decidable (∀ id ∈ data.fromType.toList, _))
  | .enum _ | .variable _ => inferInstanceAs (Decidable (_ ∧ _))
  | .element data => inferInstanceAs (Decidable (∀ id ∈ data.value.toList, _))
  | .literal _ | .typeRef _ | .nameRef _ => inferInstanceAs (Decidable True)

theorem isLeaf_of_typeRef (known : store.kind? id = some .typeRef) :
    (store.kind? id).any Kind.isLeaf = true := by
  rw [known]
  rfl

/-- What a place is filled with has fewer levels below it. -/
theorem Fits.height_lt (fits : store.Fits content) (held : child ∈ content.children) :
    ∃ kind, store.kind? child = some kind ∧ kind.height < content.kind.height := by
  have ofLeaf : ∀ {limit : Nat}, (store.kind? child).any Kind.isLeaf = true →
      ∃ kind, store.kind? child = some kind ∧ kind.height < limit + 1 := by
    intro limit leaf
    obtain ⟨kind, known, isLeaf⟩ := (Option.any_eq_true _ _).mp leaf
    have lowest := Kind.height_of_isLeaf isLeaf
    exact ⟨kind, known, by omega⟩
  cases content with
  | module data =>
    obtain ⟨kind, known, declares⟩ :=
      (Option.any_eq_true _ _).mp (fits child (Content.mem_children_module.mp held))
    exact ⟨kind, known, Nat.lt_succ_of_le (Kind.height_of_isDeclaration declares)⟩
  | cover data => exact ofLeaf (isLeaf_of_typeRef (fits child (Content.mem_children_cover.mp held)))
  | enum data =>
    rcases Content.mem_children_enum.mp held with member | typed
    · exact ⟨.element, fits.2 child member, Nat.lt_succ_self 1⟩
    · exact ofLeaf (isLeaf_of_typeRef (fits.1 child typed))
  | element data => exact ofLeaf (fits child (Content.mem_children_element.mp held))
  | «variable» data =>
    rcases Content.mem_children_variable.mp held with typed | valued
    · exact ofLeaf (isLeaf_of_typeRef (fits.1 child typed))
    · exact ofLeaf (fits.2 child valued)
  | literal | typeRef | nameRef => cases held

/-- At and below a node every place is filled with what it is for, and every name that is shown
stays on its line. -/
structure Plain (store : Store) (names : NameTable) (id : NodeId) : Prop where
  fits : ∀ {below content}, ReflTransGen store.Holds id below →
    store.content? below = some content → store.Fits content
  named : ∀ {below content}, ReflTransGen store.Holds id below →
    store.content? below = some content → ∀ name ∈ content.shownNames, OneLine (names.text name)

namespace Plain

/-- What holds of all nodes of a store holds at and below each of them. -/
theorem of_all (fits : ∀ index < store.size, (store.content? ⟨index⟩).all (store.Fits ·) = true)
    (named : ∀ index < store.size, (store.content? ⟨index⟩).all
      (fun content => ∀ name ∈ content.shownNames, OneLine (names.text name)) = true)
    (id : NodeId) : store.Plain names id := by
  have inside : ∀ {below content}, store.content? below = some content →
      below.index < store.size := by
    intro below content found
    exact present_iff.mp (by rw [Present, found]; rfl)
  refine ⟨fun {below content} _ found => ?_, fun {below content} _ found => ?_⟩
  · have all := fits below.index (inside found)
    rw [found] at all
    exact of_decide_eq_true all
  · have all := named below.index (inside found)
    rw [found] at all
    exact of_decide_eq_true all

theorem below (plain : store.Plain names id) (found : store.content? id = some content)
    (held : child ∈ content.children) : store.Plain names child :=
  have holds := holds_iff.mpr ⟨content, found, held⟩
  { fits := fun reached => plain.fits (.head holds reached)
    named := fun reached => plain.named (.head holds reached) }

/-- Below a plain node no node has more levels below it than the node itself. -/
theorem height_le (plain : store.Plain names id) {kind : Kind} (known : store.kind? id = some kind)
    {lower : NodeId} (reached : ReflTransGen store.Holds id lower) :
    ∃ least, store.kind? lower = some least ∧ least.height ≤ kind.height := by
  induction reached with
  | refl => exact ⟨kind, known, Nat.le_refl _⟩
  | tail above held ih =>
    obtain ⟨upper, knownUpper, bound⟩ := ih
    obtain ⟨content, found, member⟩ := holds_iff.mp held
    obtain ⟨least, knownLeast, less⟩ := (plain.fits above found).height_lt member
    obtain rfl : content.kind = upper := by simpa [kind?, found] using knownUpper
    exact ⟨least, knownLeast, by omega⟩

/-- A plain node has more nodes at and below it than each of those that it holds. -/
theorem rank_lt (plain : store.Plain names id) (found : store.content? id = some content)
    (held : child ∈ content.children) : store.rank child < store.rank id := by
  obtain ⟨kind, known, less⟩ := (plain.fits .refl found).height_lt held
  apply Holds.rank_lt (holds_iff.mpr ⟨content, found, held⟩)
  -- on a way back to the node the levels would have to grow again
  intro back
  obtain ⟨upper, knownUpper, bound⟩ := (plain.below found held).height_le known back
  obtain rfl : content.kind = upper := by simpa [kind?, found] using knownUpper
  omega

end Plain

end Store

/-! ## The lines of a module -/

namespace Listing

variable (store : Store) (names : NameTable)

/-- A line of a listing. The lines of members are indented. -/
inductive Line where
  | outer (text : String)
  | member (text : String)
  deriving DecidableEq, Repr

/-- What stands on a line. -/
def Line.text : Line → String
  | .outer text => text
  | .member text => "\t" ++ text

/-- The text starts with a character, and not with a tab. -/
def Flush (text : String) : Prop := text.toList.head?.any (· != '\t') = true

instance (text : String) : Decidable (Flush text) := inferInstanceAs (Decidable (_ = true))

/-- The line is not broken, and has no indentation besides the one of a member. -/
def Line.Tidy : Line → Prop
  | .outer text => OneLine text ∧ Flush text
  | .member text => OneLine text

/-- Lines one after another, each with its end. -/
def textOf (lines : List Line) : String := String.join (lines.map fun line => line.text ++ "\n")

@[simp] theorem textOf_nil : textOf [] = "" := rfl

@[simp] theorem textOf_cons (line : Line) (lines : List Line) :
    textOf (line :: lines) = line.text ++ "\n" ++ textOf lines :=
  String.join_cons

@[simp] theorem textOf_append (first second : List Line) :
    textOf (first ++ second) = textOf first ++ textOf second := by
  simp [textOf]

/-- The mark of a foreign declaration. -/
def foreignText (header : Header) : String :=
  if header.isForeign then
    match header.foreignName with
    | some foreign => "extern(" ++ names.text foreign ++ ") "
    | none => "extern "
  else ""

/-- The mark, the keyword and the name of a declaration. -/
def headText (header : Header) (keyword : String) : String :=
  foreignText names header ++ keyword ++ names.text header.name

/-- The text of a literal or a reference. -/
def leafText : Content → String
  | .literal value => value.render names
  | .typeRef data => names.text data.name
  | .nameRef data => ".".intercalate (data.path.map names.text)
  | _ => ""

/-- The text of what a place holds, after a lead. -/
def heldText (lead : String) (held : Option NodeId) : String :=
  ((held.bind store.content?).map fun content => lead ++ leafText names content).getD ""

/-- The text of an element. -/
def elementText (data : Element) : String :=
  headText names data.header "" ++ heldText store names " = " data.value

/-- The line of a member of an enumeration. -/
def memberLines (id : NodeId) : List Line :=
  (store.element? id).toList.map fun data => .member (elementText store names data)

/-- The lines of a declaration of a module. An element has none: its enumeration shows it. -/
def declarationLines (id : NodeId) : List Line :=
  match store.content? id with
  | some (.cover data) =>
    [.outer (headText names data.header "cover " ++ heldText store names " from " data.fromType)]
  | some (.variable data) =>
    [.outer (headText names data.header "var " ++ heldText store names ": " data.type ++
      heldText store names " = " data.value)]
  | some (.enum data) =>
    .outer (headText names data.header "enum " ++
      heldText store names " from " data.underlying.explicit? ++
      incrementText data.increment ++ " \x7b") ::
    data.members.ids.flatMap (memberLines store names) ++ [.outer "\x7d"]
  | _ => []

/-- The lines of a module. -/
def moduleLines (scope : Module) : List Line :=
  .outer ("module " ++ names.text scope.name) ::
    (scope.imports.map fun imported => .outer ("import " ++ names.text imported)) ++
      scope.declarations.flatMap (declarationLines store names)

variable {store names}

/-! ## Lines are not broken -/

theorem oneLine_foreignText {header : Header}
    (named : ∀ name ∈ header.shownNames, OneLine (names.text name)) :
    OneLine (foreignText names header) := by
  unfold foreignText
  by_cases isForeign : header.isForeign = true
  · cases foreignName : header.foreignName with
    | none =>
      simp only [isForeign, if_true]
      decide
    | some foreign =>
      have clean := named foreign (by simp [Header.shownNames, isForeign, foreignName])
      simp only [isForeign, if_true, oneLine_append]
      exact ⟨⟨by decide, clean⟩, by decide⟩
  · rw [if_neg isForeign]
    decide

theorem oneLine_headText {header : Header}
    (named : ∀ name ∈ header.shownNames, OneLine (names.text name)) {keyword : String}
    (clean : OneLine keyword) : OneLine (headText names header keyword) := by
  rw [headText, oneLine_append, oneLine_append]
  exact ⟨⟨oneLine_foreignText named, clean⟩, named header.name List.mem_cons_self⟩

theorem oneLine_intercalate {texts : List String} (clean : ∀ text ∈ texts, OneLine text) :
    OneLine (".".intercalate texts) := by
  induction texts with
  | nil => decide
  | cons text rest ih =>
    have cleanRest := ih fun other inRest => clean other (List.mem_cons_of_mem text inRest)
    have cleanText := clean text List.mem_cons_self
    cases rest with
    | nil => simpa using cleanText
    | cons next more =>
      rw [String.intercalate_cons_cons, oneLine_append, oneLine_append]
      exact ⟨⟨cleanText, by decide⟩, cleanRest⟩

theorem oneLine_leafText {content : Content}
    (named : ∀ name ∈ content.shownNames, OneLine (names.text name)) :
    OneLine (leafText names content) := by
  cases content with
  | literal value => exact value.oneLine_render names
  | typeRef data => exact named data.name (by simp [Content.shownNames])
  | nameRef data =>
    apply oneLine_intercalate
    intro text member
    obtain ⟨name, inPath, rfl⟩ := List.mem_map.mp member
    exact named name inPath
  | module | cover | enum | element | «variable» => exact (by decide : OneLine "")

/-- What is written for a place of a plain node stays on its line. -/
theorem oneLine_heldText {held : Option NodeId} {lead : String} (clean : OneLine lead)
    (plain : ∀ id ∈ held.toList, store.Plain names id) :
    OneLine (heldText store names lead held) := by
  unfold heldText
  cases held with
  | none => exact (by decide : OneLine "")
  | some id =>
    cases found : store.content? id with
    | none => simpa [found] using (by decide : OneLine "")
    | some content =>
      simp only [Option.bind_some, found, Option.map_some, Option.getD_some, oneLine_append]
      exact ⟨clean, oneLine_leafText ((plain id (by simp)).named .refl found)⟩

theorem oneLine_incrementText (increment : Increment) : OneLine (incrementText increment) := by
  unfold incrementText
  split
  · decide
  · simp only [oneLine_append]
    refine ⟨⟨⟨by decide, ?_⟩, oneLine_toString _⟩, by decide⟩
    cases increment.op <;> decide

theorem Flush.append {first : String} (flush : Flush first) (second : String) :
    Flush (first ++ second) := by
  obtain ⟨c, starts, isText⟩ := (Option.any_eq_true _ _).mp flush
  rw [Flush, String.toList_append, List.head?_append, starts]
  exact isText

theorem flush_headText {keyword : String} (flush : Flush keyword) (names : NameTable)
    (header : Header) : Flush (headText names header keyword) := by
  refine Flush.append ?_ _
  unfold foreignText
  by_cases isForeign : header.isForeign = true
  · rw [if_pos isForeign]
    apply Flush.append
    cases header.foreignName with
    | none => exact (by decide : Flush "extern ")
    | some foreign => exact ((by decide : Flush "extern(").append _).append _
  · rw [if_neg isForeign, String.empty_append]
    exact flush

/-- The line of a declaration with a keyword is tidy if the rest of it stays on the line. -/
theorem tidy_head {header : Header}
    (named : ∀ name ∈ header.shownNames, OneLine (names.text name)) {keyword rest : String}
    (clean : OneLine keyword) (flush : Flush keyword) (cleanRest : OneLine rest) :
    (Line.outer (headText names header keyword ++ rest)).Tidy :=
  ⟨oneLine_append.mpr ⟨oneLine_headText named clean, cleanRest⟩,
    (flush_headText flush names header).append rest⟩

theorem tidy_of_mem_memberLines {id : NodeId} (plain : store.Plain names id) :
    ∀ line ∈ memberLines store names id, line.Tidy := by
  intro line member
  obtain ⟨data, isElement, rfl⟩ := List.mem_map.mp member
  have found := Store.element?_eq_some_iff.mp (Option.mem_toList.mp isElement)
  have cleanValue : OneLine (heldText store names " = " data.value) :=
    oneLine_heldText (by decide) fun value valued =>
      plain.below found (Content.mem_children_element.mpr valued)
  exact oneLine_append.mpr
    ⟨oneLine_headText (plain.named .refl found) (by decide), cleanValue⟩

theorem tidy_of_mem_declarationLines {id : NodeId} (plain : store.Plain names id) :
    ∀ line ∈ declarationLines store names id, line.Tidy := by
  cases found : store.content? id with
  | none => simp [declarationLines, found]
  | some content =>
    have named := plain.named .refl found
    cases content with
    | cover data =>
      have cleanType : OneLine (heldText store names " from " data.fromType) :=
        oneLine_heldText (by decide) fun type typed =>
          plain.below found (Content.mem_children_cover.mpr typed)
      simpa [declarationLines, found] using
        tidy_head named (by decide : OneLine "cover ") (by decide) cleanType
    | enum data =>
      have cleanType : OneLine (heldText store names " from " data.underlying.explicit?) :=
        oneLine_heldText (by decide) fun type typed =>
          plain.below found (Content.mem_children_enum.mpr (.inr typed))
      have cleanRest : OneLine (heldText store names " from " data.underlying.explicit? ++
          (incrementText data.increment ++ " \x7b")) := by
        simp only [oneLine_append]
        exact ⟨cleanType, oneLine_incrementText data.increment, by decide⟩
      intro line member
      simp only [declarationLines, found, List.cons_append, List.mem_cons, List.mem_append,
        List.mem_flatMap, List.not_mem_nil, or_false, String.append_assoc] at member
      rcases member with rfl | ⟨id, inMembers, ofMember⟩ | rfl
      · exact tidy_head named (by decide : OneLine "enum ") (by decide) cleanRest
      · have plainMember := plain.below found (Content.mem_children_enum.mpr (.inl inMembers))
        exact tidy_of_mem_memberLines plainMember line ofMember
      · exact (by decide : OneLine "\x7d" ∧ Flush "\x7d")
    | «variable» data =>
      have cleanType : OneLine (heldText store names ": " data.type) :=
        oneLine_heldText (by decide) fun type typed =>
          plain.below found (Content.mem_children_variable.mpr (.inl typed))
      have cleanValue : OneLine (heldText store names " = " data.value) :=
        oneLine_heldText (by decide) fun value valued =>
          plain.below found (Content.mem_children_variable.mpr (.inr valued))
      simpa [declarationLines, found, String.append_assoc] using tidy_head named
        (by decide : OneLine "var ") (by decide) (oneLine_append.mpr ⟨cleanType, cleanValue⟩)
    | module | element | literal | typeRef | nameRef => simp [declarationLines, found]

theorem tidy_of_mem_moduleLines {id : NodeId} {scope : Module} (plain : store.Plain names id)
    (found : store.content? id = some (.module scope)) :
    ∀ line ∈ moduleLines store names scope, line.Tidy := by
  have named := plain.named .refl found
  have lead : ∀ {keyword : String}, OneLine keyword → Flush keyword →
      ∀ name ∈ scope.name :: scope.imports, (Line.outer (keyword ++ names.text name)).Tidy :=
    fun clean flush name shown =>
      ⟨oneLine_append.mpr ⟨clean, named name shown⟩, flush.append _⟩
  intro line member
  simp only [moduleLines, List.cons_append, List.mem_cons, List.mem_append, List.mem_map,
    List.mem_flatMap] at member
  rcases member with rfl | ⟨imported, inImports, rfl⟩ | ⟨declared, inDeclarations, ofDeclared⟩
  · exact lead (by decide : OneLine "module ") (by decide) _ List.mem_cons_self
  · exact lead (by decide : OneLine "import ") (by decide) _ (List.mem_cons_of_mem _ inImports)
  · have plainDeclared := plain.below found (Content.mem_children_module.mpr inDeclarations)
    exact tidy_of_mem_declarationLines plainDeclared line ofDeclared

theorem Line.Tidy.oneLine {line : Line} (tidy : line.Tidy) : OneLine line.text := by
  cases line with
  | outer text => exact tidy.1
  | member text => exact oneLine_append.mpr ⟨by decide, tidy⟩

/-- Lines that are not broken are as many as there are line ends in their text. -/
theorem count_textOf {lines : List Line} (tidy : ∀ line ∈ lines, line.Tidy) :
    (textOf lines).toList.count '\n' = lines.length := by
  induction lines with
  | nil => rfl
  | cons line rest ih =>
    have restEnds := ih fun other inRest => tidy other (List.mem_cons_of_mem line inRest)
    have unbroken : line.text.toList.count '\n' = 0 :=
      List.count_eq_zero.mpr (tidy line List.mem_cons_self).oneLine
    simp [restEnds, unbroken]

/-! ## How many lines there are -/

/-- The number of lines of a declaration. -/
def lineCount (store : Store) (id : NodeId) : Nat :=
  match store.content? id with
  | some (.cover _) | some (.variable _) => 1
  | some (.enum data) => 2 + data.members.size
  | _ => 0

theorem exists_memberLines {id : NodeId} (known : store.kind? id = some .element)
    (names : NameTable) :
    ∃ data, store.element? id = some data ∧
      memberLines store names id = [.member (elementText store names data)] := by
  obtain ⟨content, found, isElement⟩ := Option.map_eq_some_iff.mp known
  cases content with
  | element data =>
    have element := Store.element?_eq_some_iff.mpr found
    exact ⟨data, element, by simp [memberLines, element]⟩
  | module | cover | enum | «variable» | literal | typeRef | nameRef => cases isElement

/-- Members have one line each, in their order. -/
theorem flatMap_memberLines {members : List NodeId}
    (elements : ∀ id ∈ members, store.kind? id = some .element) (names : NameTable) :
    (members.flatMap (memberLines store names)).length = members.length ∧
      ∀ (k : Nat) (id : NodeId) (data : Element), members[k]? = some id →
        store.element? id = some data →
          (members.flatMap (memberLines store names))[k]? =
            some (.member (elementText store names data)) := by
  induction members with
  | nil => simp
  | cons first rest ih =>
    obtain ⟨count, lines⟩ := ih fun id inRest => elements id (List.mem_cons_of_mem first inRest)
    obtain ⟨own, isElement, ownLine⟩ := exists_memberLines (elements first List.mem_cons_self) names
    refine ⟨by simp [ownLine, count], fun k id data stands found => ?_⟩
    rw [List.flatMap_cons, ownLine]
    cases k with
    | zero =>
      obtain rfl : first = id := by simpa using stands
      obtain rfl : own = data := by simpa [isElement] using found
      rfl
    | succ k => exact lines k id data stands found

theorem length_declarationLines {id : NodeId} (plain : store.Plain names id) :
    (declarationLines store names id).length = lineCount store id := by
  cases found : store.content? id with
  | none => simp [declarationLines, lineCount, found]
  | some content =>
    have fits := plain.fits .refl found
    cases content with
    | enum data =>
      have size : data.members.ids.length = data.members.size := by
        simp [Members.ids, Members.toList, Members.size]
      have members := (flatMap_memberLines fits.2 names).1
      simp only [declarationLines, lineCount, found, List.cons_append, List.length_cons,
        List.length_append, List.length_nil, members, size]
      omega
    | module | cover | element | «variable» | literal | typeRef | nameRef =>
      simp [declarationLines, lineCount, found]

theorem length_moduleLines {id : NodeId} {scope : Module} (plain : store.Plain names id)
    (found : store.content? id = some (.module scope)) :
    (moduleLines store names scope).length =
      1 + scope.imports.length + (scope.declarations.map (lineCount store)).sum := by
  have declared : scope.declarations.map (fun id => (declarationLines store names id).length) =
      scope.declarations.map (lineCount store) := by
    apply List.map_congr_left
    intro declared member
    exact length_declarationLines (plain.below found (Content.mem_children_module.mpr member))
  simp only [moduleLines, List.cons_append, List.length_cons, List.length_append, List.length_map,
    List.length_flatMap, declared]
  omega

theorem getElem?_declarationLines {id value : NodeId} {data : Enumeration}
    (plain : store.Plain names id) (found : store.enum? id = some data) {k : Nat} {member : NodeId}
    {element : Element} (stands : data.members.ids[k]? = some member)
    (isElement : store.element? member = some element) (hasValue : element.value = some value) :
    ∃ content, store.content? value = some content ∧
      (declarationLines store names id)[k + 1]? = some
        (.member (headText names element.header "" ++ " = " ++ leafText names content)) := by
  have isEnum := Store.enum?_eq_some_iff.mp found
  have fits : store.Fits (.enum data) := plain.fits .refl isEnum
  have held : member ∈ (Content.enum data).children :=
    Content.mem_children_enum.mpr (.inl (List.mem_of_getElem? stands))
  have fitsElement : store.Fits (.element element) :=
    (plain.below isEnum held).fits .refl (Store.element?_eq_some_iff.mp isElement)
  obtain ⟨kind, known, -⟩ := (Option.any_eq_true _ _).mp (fitsElement value (by simp [hasValue]))
  obtain ⟨content, foundValue, -⟩ := Option.map_eq_some_iff.mp known
  obtain ⟨count, lines⟩ := flatMap_memberLines fits.2 names
  have line := lines k member element stands isElement
  have inside : k < (data.members.ids.flatMap (memberLines store names)).length :=
    (List.getElem?_eq_some_iff.mp line).1
  refine ⟨content, foundValue, ?_⟩
  simp only [declarationLines, isEnum, List.cons_append, List.getElem?_cons_succ]
  rw [List.getElem?_append_left inside, line]
  simp [elementText, heldText, hasValue, foundValue, String.append_assoc]

end Listing

end Declarations
