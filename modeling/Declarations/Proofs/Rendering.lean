import Declarations.Literal.Render

/-!
# Literals on a line

The text of a literal stays on the line that it is written on, whatever characters a string has. The
digits of numbers are no line ends, in any base; floating numbers add a point, a sign and an
exponent to them; and a quoted text escapes the characters that would end a line.
-/

namespace Declarations

/-- The text stays on the line that it is written on. -/
def OneLine (text : String) : Prop := '\n' ∉ text.toList

instance (text : String) : Decidable (OneLine text) :=
  inferInstanceAs (Decidable ('\n' ∉ text.toList))

@[simp] theorem oneLine_append {first second : String} :
    OneLine (first ++ second) ↔ OneLine first ∧ OneLine second := by
  simp [OneLine]

@[simp] theorem oneLine_ofList {chars : List Char} :
    OneLine (String.ofList chars) ↔ '\n' ∉ chars := by
  simp [OneLine]

/-! ## Numbers -/

/-- What stands among the digits of a number is the digit of a number below the base. -/
theorem exists_digit_of_mem_toDigits {base number : Nat} {c : Char} (large : 1 < base)
    (member : c ∈ Nat.toDigits base number) : ∃ digit < base, c = Nat.digitChar digit := by
  induction number using Nat.strongRecOn with
  | _ number ih =>
    rw [Nat.toDigits_eq_if large] at member
    by_cases below : number < base
    · rw [if_pos below] at member
      exact ⟨number, below, List.mem_singleton.mp member⟩
    · rw [if_neg below] at member
      rcases List.mem_append.mp member with higher | last
      · exact ih (number / base) (Nat.div_lt_self (by omega) large) higher
      · exact ⟨number % base, Nat.mod_lt _ (by omega), List.mem_singleton.mp last⟩

/-- A character that is no digit in any base is not among the digits of a number. -/
theorem not_mem_toDigits {base number : Nat} {c : Char} (large : 1 < base)
    (other : ∀ digit, Nat.digitChar digit ≠ c) : c ∉ Nat.toDigits base number := by
  intro member
  obtain ⟨digit, -, same⟩ := exists_digit_of_mem_toDigits large member
  exact other digit same.symm

/-- What stands in the text of an integer: a digit or the sign. -/
def isIntegral (c : Char) : Bool := c.isDigit || c == '-'

theorem isIntegral_of_isDigit {c : Char} (digit : c.isDigit = true) : isIntegral c = true := by
  rw [isIntegral, digit, Bool.true_or]

theorem isIntegral_of_mem_toString {number : Int} {c : Char}
    (member : c ∈ (toString number).toList) : isIntegral c = true := by
  have digits : ∀ {count : Nat}, c ∈ count.repr.toList → isIntegral c = true := by
    intro count inDigits
    rw [Nat.repr_eq_ofList_toDigits, String.toList_ofList] at inDigits
    exact isIntegral_of_isDigit (Nat.isDigit_of_mem_toDigits (by decide) (by decide) inDigits)
  rw [Int.toString_eq_repr, Int.repr_eq_if] at member
  split at member
  · exact digits member
  · rw [String.toList_append, List.mem_append] at member
    rcases member with sign | inDigits
    · rw [List.mem_singleton.mp sign]
      rfl
    · exact digits inDigits

theorem oneLine_toString (number : Int) : OneLine (toString number) := by
  intro member
  exact absurd (isIntegral_of_mem_toString member) (by decide)

namespace Decimal

/-- What stands in the text of a floating number: a digit, the sign, the point, the mark of the
exponent, or a letter of what is no finite number. -/
def isNumeric (c : Char) : Bool := isIntegral c || ['.', 'e', 'N', 'a', 'i', 'n', 'f'].contains c

theorem isNumeric_of_isIntegral {c : Char} (integral : isIntegral c = true) :
    isNumeric c = true := by
  rw [isNumeric, integral, Bool.true_or]

theorem mem_positional {digits : List Char} {point : Int} {c : Char}
    (member : c ∈ positional digits point) : c ∈ digits ∨ c = '0' ∨ c = '.' := by
  have zero : ∀ {count}, c ∈ zeros count → c = '0' := List.eq_of_mem_replicate
  unfold positional at member
  split at member
  · simp only [List.mem_append, List.mem_cons, List.not_mem_nil, or_false] at member
    rcases member with ((own | own) | own) | own
    · exact .inr (.inl own)
    · exact .inr (.inr own)
    · exact .inr (.inl (zero own))
    · exact .inl own
  · split at member
    · simp only [List.mem_append, List.mem_singleton] at member
      rcases member with (own | own) | own
      · exact .inl (List.mem_of_mem_take own)
      · exact .inr (.inr own)
      · exact .inl (List.mem_of_mem_drop own)
    · simp only [List.mem_append, List.mem_cons, List.not_mem_nil, or_false] at member
      rcases member with (own | own) | own | own
      · exact .inl own
      · exact .inr (.inl (zero own))
      · exact .inr (.inr own)
      · exact .inr (.inl own)

theorem mem_scientific {digits : List Char} {lead : Int} {c : Char}
    (member : c ∈ scientific digits lead) :
    c ∈ digits ∨ c = '.' ∨ c = 'e' ∨ c ∈ (toString lead).toList := by
  simp only [scientific, List.mem_append, List.mem_cons] at member
  rcases member with (own | own) | own | own
  · exact .inl (List.mem_of_mem_take own)
  · split at own
    · cases own
    · rcases List.mem_cons.mp own with point | inFraction
      · exact .inr (.inl point)
      · exact .inl (List.mem_of_mem_drop inFraction)
  · exact .inr (.inr (.inl own))
  · exact .inr (.inr (.inr own))

theorem isNumeric_of_mem_layout {d : Decimal} {c : Char} (member : c ∈ d.layout) :
    isNumeric c = true := by
  have digit : c ∈ Nat.toDigits 10 d.digits → isNumeric c = true := fun inDigits =>
    isNumeric_of_isIntegral
      (isIntegral_of_isDigit (Nat.isDigit_of_mem_toDigits (by decide) (by decide) inDigits))
  simp only [layout] at member
  split at member
  · rcases mem_positional member with own | rfl | rfl
    · exact digit own
    · rfl
    · rfl
  · rcases mem_scientific member with own | rfl | rfl | own
    · exact digit own
    · rfl
    · rfl
    · exact isNumeric_of_isIntegral (isIntegral_of_mem_toString own)

theorem isNumeric_of_mem_floatText {bits : UInt64} {c : Char}
    (member : c ∈ (floatText bits).toList) : isNumeric c = true := by
  have sign : ∀ negative {chars : List Char}, chars.all isNumeric = true →
      (signed negative chars).all isNumeric = true := by
    intro negative chars all
    cases negative with
    | false => exact all
    | true => exact all
  rw [floatText, String.toList_ofList] at member
  refine List.all_eq_true.mp ?_ c member
  cases FloatValue.ofBits bits with
  | notANumber => rfl
  | infinite negative => exact sign negative rfl
  | zero negative => exact sign negative rfl
  | finite negative magnitude =>
    exact sign negative (List.all_eq_true.mpr fun c => isNumeric_of_mem_layout)

theorem oneLine_floatText (bits : UInt64) : OneLine (floatText bits) := by
  intro member
  exact absurd (isNumeric_of_mem_floatText member) (by decide)

end Decimal

/-! ## Quoted text -/

namespace Text

/-- No character is written as a line end between quotes. -/
theorem newline_not_mem_escapeChar (c : Char) : '\n' ∉ escapeChar c := by
  unfold escapeChar
  split
  case h_7 isOther _ _ =>
    split
    · simpa using fun same => isOther same.symm
    · have digits : '\n' ∉ Nat.toDigits 16 c.toNat :=
        not_mem_toDigits (by decide) fun _ => Nat.digitChar_ne '\n' (by decide)
      simp [escapeCodePoint, hexDigits, digits]
  all_goals decide

theorem oneLine_quote (text : String) : OneLine (quote text) := by
  rw [quote, oneLine_ofList]
  simp [newline_not_mem_escapeChar]

end Text

/-- The text of a literal stays on its line. -/
theorem Literal.oneLine_render (names : NameTable) (value : Literal) :
    OneLine (value.render names) := by
  cases value with
  | int value => exact oneLine_toString value.toInt
  | float bits => exact Decimal.oneLine_floatText bits
  | str text => exact Text.oneLine_quote (names.text text)
  | bool value =>
    cases value with
    | true => exact (by decide : OneLine "true")
    | false => exact (by decide : OneLine "false")

end Declarations
