import Declarations.NameTable

/-!
# Names and the texts they stand for

A table keeps its texts twice: as a list in order of their numbers, and as an index from each text
to its number. The two are inverse to each other from the start, and every call keeps them so. A
text never moves, so a name that was once given out stands for its text for good, and two names are
the same exactly if their texts are, at whatever times they were asked for.
-/

namespace Declarations

/-- What can be asked of a table of names. -/
inductive NameCall where
  | intern (text : String)
  | find (text : String)
  | text (name : Name)
  | size
  deriving DecidableEq, Repr

/-- Whether a call only reads. -/
def NameCall.isReading : NameCall → Bool
  | .intern _ => false
  | .find _ | .text _ | .size => true

namespace NameTable

variable {table : NameTable} {text other : String} {name : Name} {number : Nat}

/-- The table after a call. -/
def after (table : NameTable) : NameCall → NameTable
  | .intern text => (table.intern text).2
  | .find _ | .text _ | .size => table

/-- The table after several calls, the first of the list first. -/
def afterAll (table : NameTable) (calls : List NameCall) : NameTable := calls.foldl after table

/-- The index gives the number of a text exactly if the text has that number. -/
def Consistent (table : NameTable) : Prop :=
  ∀ (text : String) (number : Nat),
    table.index[text]? = some number ↔ table.texts[number]? = some text

/-! ## Interning a text -/

theorem intern_of_known (known : table.find? text = some name) :
    table.intern text = (name, table) := by
  simp [intern, known]

theorem intern_of_new (isNew : table.find? text = none) :
    table.intern text = table.append text := by
  simp [intern, isNew]

/-- A text that is not refused for want of numbers gets the name that interning gives it. -/
theorem tryIntern_of_room (room : table.size ≤ maxNumber) (text : String) :
    table.tryIntern text = .ok (table.intern text) := by
  unfold tryIntern intern
  cases table.find? text with
  | none => simp [room]
  | some name => rfl

theorem index_append (table : NameTable) (text other : String) :
    (table.append text).2.index[other]? =
      if text = other then some table.size else table.index[other]? := by
  simp [append, Std.TreeMap.getElem?_insert]

theorem texts_append (table : NameTable) (text : String) (number : Nat) :
    (table.append text).2.texts[number]? =
      if number = table.size then some text else table.texts[number]? :=
  Array.getElem?_push

theorem find?_append (table : NameTable) (text other : String) :
    (table.append text).2.find? other =
      if text = other then some ⟨table.size⟩ else table.find? other := by
  unfold find?
  rw [index_append]
  split <;> rfl

/-- A text has the number under which it was known, or else it was interned just now. -/
theorem find?_after_cases {call : NameCall} (found : (table.after call).find? text = some name) :
    table.find? text = some name ∨ (call = .intern text ∧ (table.intern text).1 = name) := by
  cases call with
  | intern entered =>
    cases known : table.find? entered with
    | some given =>
      simp only [after, intern_of_known known] at found
      exact .inl found
    | none =>
      simp only [after, intern_of_new known, find?_append] at found
      by_cases same : entered = text
      · subst same
        rw [if_pos rfl] at found
        exact .inr ⟨rfl, by simpa [intern_of_new known, append] using found⟩
      · rw [if_neg same] at found
        exact .inl found
  | find | text | size => exact .inl found

/-! ## Texts stay where they are -/

theorem texts_after (stands : table.texts[number]? = some text) (call : NameCall) :
    (table.after call).texts[number]? = some text := by
  cases call with
  | intern entered =>
    cases known : table.find? entered with
    | some given => simpa [after, intern_of_known known] using stands
    | none =>
      have inside : number < table.size := (Array.getElem?_eq_some_iff.mp stands).1
      rw [after, intern_of_new known, texts_append, if_neg (Nat.ne_of_lt inside)]
      exact stands
  | find | text | size => exact stands

theorem texts_afterAll (stands : table.texts[number]? = some text) (calls : List NameCall) :
    (table.afterAll calls).texts[number]? = some text := by
  induction calls generalizing table with
  | nil => exact stands
  | cons call rest ih => exact ih (texts_after stands call)

theorem text_of_stands (stands : table.texts[name.raw]? = some text) : table.text name = text := by
  simp [NameTable.text, stands]

/-! ## The index is the inverse of the list -/

theorem consistent_initial : initial.Consistent := by
  intro text number
  cases number with
  | zero => simp [initial, Std.TreeMap.getElem?_insert]
  | succ number => simp [initial, Std.TreeMap.getElem?_insert]

theorem eq_empty_of_find?_initial (found : initial.find? text = some name) :
    text = "" ∧ name = .empty := by
  by_cases isEmpty : text = ""
  · subst isEmpty
    exact ⟨rfl, (Option.some.inj found).symm⟩
  · simp [find?, initial, Ne.symm isEmpty] at found

namespace Consistent

theorem find?_iff (consistent : table.Consistent) :
    table.find? text = some name ↔ table.texts[name.raw]? = some text := by
  rw [← consistent, find?, Option.map_eq_some_iff]
  constructor
  · rintro ⟨number, given, rfl⟩
    exact given
  · intro given
    exact ⟨name.raw, given, rfl⟩

theorem append (consistent : table.Consistent) (isNew : table.find? text = none) :
    (table.append text).2.Consistent := by
  intro other number
  have absent : ∀ taken : Nat, table.texts[taken]? ≠ some text := by
    intro taken stands
    rw [(@find?_iff _ text ⟨taken⟩ consistent).mpr stands] at isNew
    cases isNew
  rw [index_append, texts_append]
  by_cases same : text = other
  · subst same
    by_cases last : number = table.size
    · simp [last]
    · simp [last, absent, Ne.symm last]
  · rw [if_neg same, consistent other number]
    by_cases last : number = table.size
    · simp [last, same, size]
    · simp [last]

theorem after (consistent : table.Consistent) (call : NameCall) :
    (table.after call).Consistent := by
  cases call with
  | intern text =>
    cases known : table.find? text with
    | some name => simpa [NameTable.after, intern_of_known known] using consistent
    | none => simpa [NameTable.after, intern_of_new known] using consistent.append known
  | find | text | size => exact consistent

theorem afterAll (consistent : table.Consistent) (calls : List NameCall) :
    (table.afterAll calls).Consistent := by
  induction calls generalizing table with
  | nil => exact consistent
  | cons call rest ih => exact ih (consistent.after call)

/-- The text stands under the name that interning it gives. -/
theorem stands_intern (consistent : table.Consistent) (text : String) :
    (table.intern text).2.texts[(table.intern text).1.raw]? = some text := by
  cases known : table.find? text with
  | some name =>
    rw [intern_of_known known]
    exact consistent.find?_iff.mp known
  | none =>
    rw [intern_of_new known, texts_append]
    exact if_pos rfl

/-- Whatever is asked in between, two texts have the same name only if they are the same. -/
theorem intern_eq_iff (consistent : table.Consistent) (text other : String)
    (calls : List NameCall) :
    (((table.intern text).2.afterAll calls).intern other).1 = (table.intern text).1 ↔
      other = text := by
  have stands := texts_afterAll (consistent.stands_intern text) calls
  have later : ((table.intern text).2.afterAll calls).Consistent :=
    (consistent.after (.intern text)).afterAll calls
  constructor
  · intro same
    have own := later.stands_intern other
    have kept := texts_after stands (.intern other)
    rw [same] at own
    exact Option.some.inj (own.symm.trans kept)
  · rintro rfl
    rw [intern_of_known (later.find?_iff.mpr stands)]

end Consistent

/-! ## What a table is after calls -/

/-- The text was interned by one of the calls, which gave it the name. -/
def GivenBy (table : NameTable) (calls : List NameCall) (text : String) (name : Name) : Prop :=
  ∃ early late, calls = early ++ .intern text :: late ∧
    ((table.afterAll early).intern text).1 = name

theorem Consistent.find?_of_givenBy (consistent : table.Consistent) {calls : List NameCall}
    (given : table.GivenBy calls text name) : (table.afterAll calls).find? text = some name := by
  obtain ⟨early, late, rfl, rfl⟩ := given
  have split : table.afterAll (early ++ .intern text :: late) =
      ((table.afterAll early).intern text).2.afterAll late := List.foldl_append
  have stands := texts_afterAll ((consistent.afterAll early).stands_intern text) late
  rw [(consistent.afterAll _).find?_iff, split]
  exact stands

theorem find?_afterAll_cases {calls : List NameCall}
    (found : (table.afterAll calls).find? text = some name) :
    table.find? text = some name ∨ table.GivenBy calls text name := by
  induction calls generalizing table with
  | nil => exact .inl found
  | cons call rest ih =>
    rcases ih found with before | ⟨early, late, split, given⟩
    · rcases find?_after_cases before with known | ⟨rfl, given⟩
      · exact .inl known
      · exact .inr ⟨[], rest, rfl, given⟩
    · exact .inr ⟨call :: early, late, congrArg (call :: ·) split, given⟩

/-- What holds of the table that calls make of the initial one. -/
structure Lawful (table : NameTable) (calls : List NameCall) : Prop where
  /-- The index and the list of texts are inverse to each other. -/
  inverse : ∀ (text : String) (number : Nat),
    table.index[text]? = some number ↔ table.texts[number]? = some text
  /-- The numbers that are given out are those below the size. -/
  dense : ∀ name : Name, (∃ text, table.find? text = some name) ↔ name.raw < table.size
  empty_first : table.find? "" = some .empty
  /-- A text is found if it is empty or was interned, under the name that it got then. -/
  found_iff : ∀ text name, table.find? text = some name ↔
    (text = "" ∧ name = .empty) ∨ initial.GivenBy calls text name
  /-- Interning a text that is there changes nothing. -/
  intern_known : ∀ text name, table.find? text = some name → table.intern text = (name, table)
  /-- A name stands for its text at once and after any later calls. -/
  text_intern : ∀ text more,
    ((table.intern text).2.afterAll more).text (table.intern text).1 = text
  /-- Two texts have the same name only if they are the same, whatever is asked in between. -/
  intern_eq_iff : ∀ text other more,
    (((table.intern text).2.afterAll more).intern other).1 = (table.intern text).1 ↔ other = text
  /-- The text of a name that was given out has that name. -/
  intern_text : ∀ name : Name, name.raw < table.size →
    table.intern (table.text name) = (name, table)
  /-- Calls that only read change nothing. -/
  reads : ∀ call : NameCall, call.isReading = true → table.after call = table
  /-- No text is refused as long as a number is left. -/
  room : table.size ≤ maxNumber → ∀ text, table.tryIntern text = .ok (table.intern text)

/-- Whatever is asked of a table, names and texts stand for each other one to one. -/
theorem lawful_afterAll (calls : List NameCall) : (initial.afterAll calls).Lawful calls := by
  have consistent := consistent_initial.afterAll calls
  have emptyStands : (initial.afterAll calls).texts[Name.empty.raw]? = some "" :=
    texts_afterAll rfl calls
  refine ⟨consistent, ?_, ?_, ?_, fun _ _ => intern_of_known, ?_, consistent.intern_eq_iff,
    ?_, ?_, tryIntern_of_room⟩
  · intro name
    simp only [consistent.find?_iff, size]
    constructor
    · rintro ⟨text, stands⟩
      exact (Array.getElem?_eq_some_iff.mp stands).1
    · intro inside
      exact ⟨_, Array.getElem?_eq_getElem inside⟩
  · exact consistent.find?_iff.mpr emptyStands
  · intro text name
    constructor
    · intro found
      exact (find?_afterAll_cases found).imp_left eq_empty_of_find?_initial
    · rintro (⟨rfl, rfl⟩ | given)
      · exact consistent.find?_iff.mpr emptyStands
      · exact consistent_initial.find?_of_givenBy given
  · intro text more
    exact text_of_stands (texts_afterAll (consistent.stands_intern text) more)
  · intro name inside
    have stands := Array.getElem?_eq_getElem inside
    rw [text_of_stands stands]
    exact intern_of_known (consistent.find?_iff.mpr stands)
  · intro call reading
    cases call with
    | intern text => cases reading
    | find | text | size => rfl

/-- Two texts are interned, the first of them twice, with readings in between. -/
def reuse : List NameCall :=
  [.intern "width", .find "Count", .intern "Count", .text ⟨7⟩, .intern "width", .size]

/-- The second time the first text gets the name it has, a third text gets another one, and the
first name stands for its text also after that. -/
theorem lawful_afterAll_reuse :
    (initial.afterAll reuse).texts = #["", "width", "Count"] ∧
    (initial.afterAll reuse).intern "width" = (⟨1⟩, initial.afterAll reuse) ∧
    ((initial.afterAll reuse).intern "height").1 = ⟨3⟩ ∧
    ((initial.afterAll reuse).after (.intern "height")).text ⟨1⟩ = "width" := by
  have given : initial.GivenBy reuse "width" ⟨1⟩ := ⟨[], _, rfl, by decide⟩
  have lawful := lawful_afterAll reuse
  have known := (lawful.found_iff "width" ⟨1⟩).mpr (.inr given)
  have stands := lawful.text_intern "width" [.intern "height"]
  rw [lawful.intern_known _ _ known] at stands
  exact ⟨by decide, lawful.intern_known _ _ known, by decide, stands⟩

end NameTable

end Declarations
