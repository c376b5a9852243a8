import Declarations.Output.Writer
import Declarations.Proofs.Rendering

/-!
# What a writer writes, line by line

A page keeps for each line what the line received, each fragment with the depth at which it came.
The text of a line is its fragments one after another, behind the tabs for the depth of the first
fragment that is not empty; a line that received no such fragment is empty. A writer that is given
the same steps as a page has the text of the page: the lines with line ends between them.
-/

namespace Declarations

/-- What can be asked of a writer, besides tabs that do not start a line. -/
inductive WriterStep where
  | emit (text : String)
  | emitSpace
  | emitNewline
  | indent
  | dedent
  | ensureTrailingNewline
  deriving DecidableEq, Repr

namespace Writer

variable {writer : Writer}

/-- The writer after a step. -/
def after (writer : Writer) : WriterStep → Writer
  | .emit text => writer.emit text
  | .emitSpace => writer.emitSpace
  | .emitNewline => writer.emitNewline
  | .indent => writer.indent
  | .dedent => writer.dedent
  | .ensureTrailingNewline => writer.ensureTrailingNewline

/-- The writer after several steps, the first of the list first. -/
def afterAll (writer : Writer) (steps : List WriterStep) : Writer := steps.foldl after writer

@[simp] theorem depth_emitIndent (writer : Writer) (count : Nat) :
    (writer.emitIndent count).depth = writer.depth := rfl

@[simp] theorem depth_startLine (writer : Writer) : writer.startLine.depth = writer.depth := by
  unfold startLine
  split <;> rfl

@[simp] theorem depth_emit (writer : Writer) (text : String) :
    (writer.emit text).depth = writer.depth := by
  unfold emit
  split
  · rfl
  · exact depth_startLine writer

@[simp] theorem depth_emitSpace (writer : Writer) : writer.emitSpace.depth = writer.depth :=
  depth_startLine writer

@[simp] theorem depth_emitNewline (writer : Writer) : writer.emitNewline.depth = writer.depth := rfl

@[simp] theorem text_emitIndent (writer : Writer) (count : Nat) :
    (writer.emitIndent count).text = writer.text ++ tabs count := rfl

@[simp] theorem text_emitNewline (writer : Writer) :
    writer.emitNewline.text = writer.text ++ "\n" := rfl

theorem emit_empty (writer : Writer) : writer.emit "" = writer := rfl

/-- The first text on a line comes behind the tabs and starts the line. -/
theorem emit_of_atLineStart (start : writer.atLineStart = true) {text : String}
    (received : text.isEmpty = false) :
    writer.emit text =
      { writer with text := writer.text ++ tabs writer.depth ++ text, atLineStart := false } := by
  simp [emit, received, startLine, start, emitIndent]

/-- A further text on a line comes at its end. -/
theorem emit_of_not_atLineStart (started : writer.atLineStart = false) {text : String}
    (received : text.isEmpty = false) :
    writer.emit text = { writer with text := writer.text ++ text } := by
  simp [emit, received, startLine, started]

theorem endsLine_eq_true_iff :
    writer.endsLine = true ↔ writer.text.toList.getLast? = some '\n' := by
  simp [endsLine]

theorem endsLine_emitNewline (writer : Writer) : writer.emitNewline.endsLine = true := by
  rw [endsLine_eq_true_iff, text_emitNewline, String.toList_append]
  exact List.getLast?_concat

/-- The text is empty or ends with a line end once that is ensured. -/
theorem isEmpty_or_endsLine_ensureTrailingNewline (writer : Writer) :
    (writer.ensureTrailingNewline.isEmpty || writer.ensureTrailingNewline.endsLine) = true := by
  unfold ensureTrailingNewline
  split
  · assumption
  · rw [endsLine_emitNewline, Bool.or_true]

theorem ensureTrailingNewline_idem (writer : Writer) :
    writer.ensureTrailingNewline.ensureTrailingNewline = writer.ensureTrailingNewline :=
  if_pos (isEmpty_or_endsLine_ensureTrailingNewline writer)

end Writer

/-! ## Pages -/

/-- A text, and the depth at which it came. -/
structure Fragment where
  depth : Nat
  text : String
  deriving DecidableEq, Repr

/-- What a line received, in order. -/
abbrev PageLine := List Fragment

namespace PageLine

variable {line : PageLine}

/-- The line received nothing but empty fragments. -/
def isBlank (line : PageLine) : Bool := line.all (·.text.isEmpty)

/-- The fragments, behind the tabs for the depth of the first that is not empty. -/
def text (line : PageLine) : String :=
  match line.find? (!·.text.isEmpty) with
  | none => ""
  | some first => Writer.tabs first.depth ++ String.join (line.map Fragment.text)

theorem find?_eq_none_iff : line.find? (!·.text.isEmpty) = none ↔ line.isBlank = true := by
  rw [List.find?_eq_none, isBlank, List.all_eq_true]
  simp

theorem join_eq_empty_iff :
    String.join (line.map Fragment.text) = "" ↔ line.isBlank = true := by
  induction line with
  | nil => exact iff_of_true rfl rfl
  | cons fragment rest ih =>
    rw [List.map_cons, String.join_cons, String.append_eq_empty_iff, ih]
    simp [isBlank]

theorem exists_first (started : line.isBlank = false) :
    ∃ first, line.find? (!·.text.isEmpty) = some first := by
  cases found : line.find? (!·.text.isEmpty) with
  | none =>
    rw [find?_eq_none_iff, started] at found
    cases found
  | some first => exact ⟨first, rfl⟩

theorem text_eq_empty_iff : line.text = "" ↔ line.isBlank = true := by
  constructor
  · intro empty
    cases blank : line.isBlank with
    | true => rfl
    | false =>
      obtain ⟨first, found⟩ := exists_first blank
      simp only [text, found, String.append_eq_empty_iff] at empty
      rw [← blank]
      exact join_eq_empty_iff.mp empty.2
  · intro blank
    rw [text, find?_eq_none_iff.mpr blank]

theorem isBlank_append_singleton (line : PageLine) (fragment : Fragment) :
    isBlank (line ++ [fragment]) = (line.isBlank && fragment.text.isEmpty) := by
  simp [isBlank]

/-- The first text on a line comes behind the tabs. -/
theorem text_append_of_isBlank (blank : line.isBlank = true) (fragment : Fragment)
    (received : fragment.text.isEmpty = false) :
    text (line ++ [fragment]) = Writer.tabs fragment.depth ++ fragment.text := by
  simp [text, find?_eq_none_iff.mpr blank, join_eq_empty_iff.mpr blank, received]

/-- A further text on a line comes at its end. -/
theorem text_append_of_not_isBlank (started : line.isBlank = false) (fragment : Fragment) :
    text (line ++ [fragment]) = text line ++ fragment.text := by
  obtain ⟨first, found⟩ := exists_first started
  simp [text, found, String.append_assoc]

/-- An empty fragment does not show. -/
theorem text_append_empty (line : PageLine) (depth : Nat) :
    text (line ++ [⟨depth, ""⟩]) = text line := by
  cases blank : line.isBlank with
  | true =>
    rw [text_eq_empty_iff.mpr blank, text_eq_empty_iff, isBlank_append_singleton, blank]
    rfl
  | false => rw [text_append_of_not_isBlank blank, String.append_empty]

theorem oneLine_text (clean : ∀ fragment ∈ line, OneLine fragment.text) : OneLine line.text := by
  have joined : OneLine (String.join (line.map Fragment.text)) := by
    simpa [OneLine, String.toList_join] using clean
  unfold text
  split
  · decide
  · rw [oneLine_append]
    exact ⟨by simp [Writer.tabs], joined⟩

end PageLine

/-- The lines that are ended, the line at the end, and the depth. -/
structure Page where
  ended : List PageLine := []
  current : PageLine := []
  depth : Nat := 0
  deriving DecidableEq, Repr

namespace Page

variable {page : Page}

def lines (page : Page) : List PageLine := page.ended ++ [page.current]

/-- The lines with line ends between them. -/
def text (page : Page) : String := "\n".intercalate (page.lines.map PageLine.text)

/-- The line at the end receives a text. -/
def receive (page : Page) (text : String) : Page :=
  { page with current := page.current ++ [⟨page.depth, text⟩] }

def endLine (page : Page) : Page :=
  { page with ended := page.ended ++ [page.current], current := [] }

/-- The page after a step. To ensure a trailing newline ends a line that has a text. -/
def after (page : Page) : WriterStep → Page
  | .emit text => page.receive text
  | .emitSpace => page.receive " "
  | .emitNewline => page.endLine
  | .indent => { page with depth := page.depth + 1 }
  | .dedent => { page with depth := page.depth - 1 }
  | .ensureTrailingNewline => if page.current.isBlank then page else page.endLine

/-- The page after several steps, the first of the list first. -/
def afterAll (page : Page) (steps : List WriterStep) : Page := steps.foldl after page

/-- The lines before the last, each with its end. -/
def front (page : Page) : String := String.join (page.ended.map fun line => line.text ++ "\n")

theorem text_eq_append (page : Page) : page.text = page.front ++ page.current.text := by
  unfold text lines front
  induction page.ended with
  | nil => simp
  | cons line rest ih =>
    rw [List.cons_append, List.map_cons, String.intercalate_cons_of_ne_nil (by simp), ih,
      List.map_cons, String.join_cons]
    simp only [String.append_assoc]

theorem front_endLine (page : Page) : page.endLine.front = page.text ++ "\n" := by
  rw [text_eq_append]
  simp [front, endLine, String.append_assoc]

/-- No fragment has a line end in it. -/
def Clean (page : Page) : Prop := ∀ line ∈ page.lines, ∀ fragment ∈ line, OneLine fragment.text

theorem Clean.receive (clean : page.Clean) {text : String} (oneLine : OneLine text) :
    (page.receive text).Clean := by
  intro line listed fragment member
  rcases List.mem_append.mp listed with earlier | last
  · exact clean line (List.mem_append_left _ earlier) fragment member
  · rw [List.mem_singleton.mp last] at member
    rcases List.mem_append.mp member with own | new
    · exact clean page.current (List.mem_append_right _ List.mem_cons_self) fragment own
    · rw [List.mem_singleton.mp new]
      exact oneLine

theorem Clean.endLine (clean : page.Clean) : page.endLine.Clean := by
  intro line listed fragment member
  rcases List.mem_append.mp listed with earlier | last
  · exact clean line earlier fragment member
  · rw [List.mem_singleton.mp last] at member
    cases member

/-- Steps keep a page clean if what they emit is. -/
theorem Clean.after (clean : page.Clean) {step : WriterStep}
    (oneLine : ∀ text, step = .emit text → OneLine text) : (page.after step).Clean := by
  cases step with
  | emit text => exact clean.receive (oneLine text rfl)
  | emitSpace => exact clean.receive (by decide)
  | emitNewline => exact clean.endLine
  | indent => exact clean
  | dedent => exact clean
  | ensureTrailingNewline =>
    simp only [Page.after]
    split
    · exact clean
    · exact clean.endLine

theorem Clean.oneLine_current (clean : page.Clean) : OneLine page.current.text :=
  PageLine.oneLine_text (clean page.current (List.mem_append_right _ List.mem_cons_self))

/-- The text ends with the end of a line, or is empty, exactly while the last line is blank. -/
theorem ends_iff_isBlank (clean : page.Clean) :
    (page.text = "" ∨ page.text.toList.getLast? = some '\n') ↔ page.current.isBlank = true := by
  rw [text_eq_append]
  cases blank : page.current.isBlank with
  | true =>
    simp only [iff_true, PageLine.text_eq_empty_iff.mpr blank, String.append_empty]
    rcases List.eq_nil_or_concat page.ended with none | ⟨before, last, split⟩
    · exact .inl (by simp [front, none])
    · exact .inr (by simp [front, split])
  | false =>
    simp only [Bool.false_eq_true, iff_false, not_or]
    have started : page.current.text ≠ "" := by
      rw [Ne, PageLine.text_eq_empty_iff, blank]
      exact Bool.false_ne_true
    refine ⟨fun empty => started (String.append_eq_empty_iff.mp empty).2, fun ends => ?_⟩
    -- the last character stands on the last line, which has no line end
    rw [String.toList_append, List.getLast?_append] at ends
    cases last : page.current.text.toList.getLast? with
    | none => exact started (String.toList_eq_nil_iff.mp (List.getLast?_eq_none_iff.mp last))
    | some c =>
      rw [last, Option.some_or] at ends
      cases ends
      exact clean.oneLine_current (List.mem_of_getLast? last)

end Page

/-! ## Writers and pages -/

namespace Writer

variable {page : Page} {writer : Writer}

/-- The writer has the text and the depth of the page, and starts a line while the last line of the
page is blank. -/
structure Shows (writer : Writer) (page : Page) : Prop where
  text : writer.text = page.text
  depth : writer.depth = page.depth
  atLineStart : writer.atLineStart = page.current.isBlank

namespace Shows

theorem new : Writer.new.Shows {} := ⟨rfl, rfl, rfl⟩

/-- A text that is emitted is received by the last line. -/
theorem emit (shows : writer.Shows page) (text : String) :
    (writer.emit text).Shows (page.receive text) := by
  have blank : (page.receive text).current.isBlank = (page.current.isBlank && text.isEmpty) :=
    PageLine.isBlank_append_singleton page.current ⟨page.depth, text⟩
  have fronts : (page.receive text).front = page.front := rfl
  have writes := shows.text.trans page.text_eq_append
  cases empty : text.isEmpty with
  | true =>
    obtain rfl : text = "" := String.isEmpty_iff.mp empty
    refine ⟨?_, shows.depth, ?_⟩
    · rw [emit_empty, Page.text_eq_append, fronts, writes]
      exact congrArg _ (PageLine.text_append_empty page.current page.depth).symm
    · rw [emit_empty, blank, empty, Bool.and_true]
      exact shows.atLineStart
  | false =>
    rw [empty, Bool.and_false] at blank
    cases start : page.current.isBlank with
    | true =>
      have line : (page.receive text).current.text = tabs page.depth ++ text :=
        PageLine.text_append_of_isBlank start ⟨page.depth, text⟩ empty
      rw [PageLine.text_eq_empty_iff.mpr start, String.append_empty] at writes
      rw [emit_of_atLineStart (shows.atLineStart.trans start) empty]
      refine ⟨?_, shows.depth, blank.symm⟩
      rw [Page.text_eq_append, fronts, line, writes, shows.depth, String.append_assoc]
    | false =>
      have line : (page.receive text).current.text = page.current.text ++ text :=
        PageLine.text_append_of_not_isBlank start ⟨page.depth, text⟩
      rw [emit_of_not_atLineStart (shows.atLineStart.trans start) empty]
      refine ⟨?_, shows.depth, shows.atLineStart.trans (start.trans blank.symm)⟩
      rw [Page.text_eq_append, fronts, line, writes, String.append_assoc]

theorem emitNewline (shows : writer.Shows page) : writer.emitNewline.Shows page.endLine := by
  refine ⟨?_, shows.depth, rfl⟩
  rw [Page.text_eq_append, Page.front_endLine, text_emitNewline, shows.text]
  exact String.append_empty.symm

/-- A trailing newline is missing exactly if the last line has a text. -/
theorem ensureTrailingNewline (shows : writer.Shows page) (clean : page.Clean) :
    writer.ensureTrailingNewline.Shows (page.after .ensureTrailingNewline) := by
  have ends : (writer.isEmpty || writer.endsLine) = page.current.isBlank := by
    rw [Bool.eq_iff_iff, ← Page.ends_iff_isBlank clean, Bool.or_eq_true, endsLine_eq_true_iff,
      Writer.isEmpty, String.isEmpty_iff, shows.text]
  simp only [Writer.ensureTrailingNewline, Page.after, ends]
  split
  · exact shows
  · exact shows.emitNewline

theorem after (shows : writer.Shows page) (clean : page.Clean) (step : WriterStep) :
    (writer.after step).Shows (page.after step) := by
  cases step with
  | emit text => exact shows.emit text
  | emitSpace => exact shows.emit " "
  | emitNewline => exact shows.emitNewline
  | indent => exact ⟨shows.text, congrArg (· + 1) shows.depth, shows.atLineStart⟩
  | dedent => exact ⟨shows.text, congrArg (· - 1) shows.depth, shows.atLineStart⟩
  | ensureTrailingNewline => exact shows.ensureTrailingNewline clean

/-- A writer that shows a page shows it after any steps that break no line. -/
theorem afterAll (shows : writer.Shows page) (clean : page.Clean) {steps : List WriterStep}
    (oneLine : ∀ text, .emit text ∈ steps → OneLine text) :
    (writer.afterAll steps).Shows (page.afterAll steps) ∧ (page.afterAll steps).Clean := by
  induction steps generalizing writer page with
  | nil => exact ⟨shows, clean⟩
  | cons step rest ih =>
    refine ih (shows.after clean step) (clean.after ?_) ?_
    · rintro text rfl
      exact oneLine text List.mem_cons_self
    · intro text member
      exact oneLine text (List.mem_cons_of_mem step member)

end Shows

/-- Whatever is asked of a new writer, if nothing that it emits breaks a line, its text is the lines
of the page with line ends between them, none of which stands inside a line. To ensure a trailing
newline a second time changes nothing, and leaves a text that is empty or ends with a newline. -/
theorem text_afterAll (steps : List WriterStep)
    (oneLine : ∀ text, .emit text ∈ steps → OneLine text) :
    (Writer.new.afterAll steps).text =
      "\n".intercalate ((Page.afterAll {} steps).lines.map PageLine.text) ∧
    (∀ line ∈ (Page.afterAll {} steps).lines, OneLine line.text) ∧
    ∀ writer : Writer,
      writer.ensureTrailingNewline.ensureTrailingNewline = writer.ensureTrailingNewline ∧
      (writer.ensureTrailingNewline.text = "" ∨
        writer.ensureTrailingNewline.text.toList.getLast? = some '\n') := by
  have cleanStart : Page.Clean {} := by simp [Page.Clean, Page.lines]
  obtain ⟨shows, clean⟩ := Shows.new.afterAll cleanStart oneLine
  have unbroken : ∀ line ∈ (Page.afterAll {} steps).lines, OneLine line.text :=
    fun line listed => PageLine.oneLine_text (clean line listed)
  refine ⟨shows.text, unbroken, fun writer => ⟨ensureTrailingNewline_idem writer, ?_⟩⟩
  have ends := isEmpty_or_endsLine_ensureTrailingNewline writer
  rwa [Bool.or_eq_true, isEmpty, String.isEmpty_iff, endsLine_eq_true_iff] at ends

/-- Steps that change the depth in the middle of lines, emit nothing, leave lines blank and end
lines in both ways. -/
def raggedSteps : List WriterStep :=
  [.dedent, .indent, .emit "", .indent, .emit "a", .dedent, .emitSpace, .emit "b", .emitNewline,
    .ensureTrailingNewline, .emit "", .emitNewline, .emit "c", .indent, .ensureTrailingNewline,
    .ensureTrailingNewline, .emitSpace]

theorem text_afterAll_ragged :
    (∀ text, .emit text ∈ raggedSteps → OneLine text) ∧
    (Page.afterAll {} raggedSteps).lines =
      [[⟨1, ""⟩, ⟨2, "a"⟩, ⟨1, " "⟩, ⟨1, "b"⟩], [⟨1, ""⟩], [⟨1, "c"⟩], [⟨2, " "⟩]] ∧
    (Writer.new.afterAll raggedSteps).text = "\t\ta b\n\n\tc\n\t\t " := by
  have oneLine : ∀ text, .emit text ∈ raggedSteps → OneLine text := by
    simp [raggedSteps, OneLine]
  exact ⟨oneLine, by decide, (text_afterAll raggedSteps oneLine).1.trans (by decide)⟩

end Writer

end Declarations
