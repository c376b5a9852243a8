import Declarations.Proofs.Rendering
import Mathlib.Logic.Function.Basic
import Std.Data.String.ToInt

/-!
# The text of a literal tells the literal

A character between quotes is written in one of three ways, and no way of writing a character is the
beginning of a way of writing another. So a quoted text can be read back, whatever quotes,
backslashes and escapes it holds itself. An integer is told by its digits, and the kinds are told
apart by the characters that stand in their texts. Only two floating numbers can share a text.
-/

namespace Declarations

/-! ## Numbers -/

/-- The digits of a number are those of its whole part, if there is one, and that of the rest. -/
theorem toDigits_eq_append {base : Nat} (large : 1 < base) (number : Nat) :
    Nat.toDigits base number =
      (if number < base then [] else Nat.toDigits base (number / base)) ++
        [Nat.digitChar (number % base)] := by
  rw [Nat.toDigits_eq_if large]
  split
  · rename_i below
    rw [Nat.mod_eq_of_lt below, List.nil_append]
  · rfl

/-- Different numbers have different digits, in every base that has a digit for each rest. -/
theorem toDigits_injective {base : Nat} (large : 1 < base) (small : base ≤ 16) :
    Function.Injective (Nat.toDigits base) := by
  have digits : ∀ m < 16, ∀ n < 16, Nat.digitChar m = Nat.digitChar n → m = n := by decide
  intro first second same
  induction first using Nat.strongRecOn generalizing second with
  | _ first ih =>
    rw [toDigits_eq_append large first, toDigits_eq_append large second] at same
    obtain ⟨wholes, rests⟩ := List.append_inj' same rfl
    have rest : first % base = second % base := by
      have below := Nat.mod_lt first (by omega : base > 0)
      have belowOther := Nat.mod_lt second (by omega : base > 0)
      exact digits _ (by omega) _ (by omega) (List.singleton_inj.mp rests)
    by_cases short : first < base <;> by_cases shortOther : second < base
    · rwa [Nat.mod_eq_of_lt short, Nat.mod_eq_of_lt shortOther] at rest
    · rw [if_pos short, if_neg shortOther] at wholes
      exact absurd wholes.symm Nat.toDigits_ne_nil
    · rw [if_neg short, if_pos shortOther] at wholes
      exact absurd wholes Nat.toDigits_ne_nil
    · rw [if_neg short, if_neg shortOther] at wholes
      have whole : first / base = second / base :=
        ih (first / base) (Nat.div_lt_self (by omega) large) wholes
      rw [← Nat.div_add_mod first base, ← Nat.div_add_mod second base, whole, rest]

namespace Decimal

/-- The text of a floating number has a character that no integer has. -/
theorem exists_mem_floatText_not_isIntegral (bits : UInt64) :
    ∃ c ∈ (floatText bits).toList, isIntegral c = false := by
  have sign : ∀ negative {chars : List Char}, (∃ c ∈ chars, isIntegral c = false) →
      ∃ c ∈ signed negative chars, isIntegral c = false := by
    rintro negative chars ⟨c, inChars, isMark⟩
    refine ⟨c, ?_, isMark⟩
    cases negative with
    | false => exact inChars
    | true => exact List.mem_cons_of_mem '-' inChars
  have point : ∀ digits place, '.' ∈ positional digits place := by
    intro digits place
    unfold positional
    split
    · simp
    · split <;> simp
  have exponent : ∀ digits lead, 'e' ∈ scientific digits lead := by
    intro digits lead
    simp [scientific]
  rw [floatText, String.toList_ofList]
  cases FloatValue.ofBits bits with
  | notANumber => exact ⟨'N', List.mem_cons_self, rfl⟩
  | infinite negative => exact sign negative ⟨'i', List.mem_cons_self, rfl⟩
  | zero negative => exact sign negative ⟨'.', List.mem_cons_of_mem _ List.mem_cons_self, rfl⟩
  | finite negative magnitude =>
    apply sign negative
    simp only [layout]
    split
    · exact ⟨'.', point _ _, rfl⟩
    · exact ⟨'e', exponent _ _, rfl⟩

end Decimal

/-! ## Quoted text -/

namespace Text

/-- What a character after a backslash stands for. -/
def meaning : Char → Char
  | '0' => '\x00'
  | 't' => '\t'
  | 'r' => '\r'
  | 'n' => '\n'
  | mark => mark

/-- The ways in which a character is written: as itself, by a mark after a backslash, or by its code
point. -/
inductive Written : Char → List Char → Prop
  | plain {c : Char} (noEscape : c ≠ '\\') : Written c [c]
  | short {c mark : Char} (stands : meaning mark = c) (noCode : mark ≠ 'u') : Written c ['\\', mark]
  | code (c : Char) : Written c (escapeCodePoint c)

theorem written_escapeChar (c : Char) : Written c (escapeChar c) := by
  unfold escapeChar
  split
  case h_7 noEscape _ =>
    split
    · exact .plain noEscape
    · exact .code c
  all_goals exact .short rfl (by decide)

namespace Written

variable {first second : Char} {written other rest more : List Char}

theorem ne_nil (way : Written first written) : written ≠ [] := by
  cases way <;> exact List.cons_ne_nil _ _

/-- What ends with the first occurrence of a character is told by the whole. -/
theorem append_cons_inj {c : Char} (clean : c ∉ written) (cleanOther : c ∉ other)
    (same : written ++ c :: rest = other ++ c :: more) : written = other ∧ rest = more := by
  induction written generalizing other with
  | nil =>
    cases other with
    | nil => exact ⟨rfl, (List.cons_eq_cons.mp same).2⟩
    | cons d others =>
      obtain ⟨rfl, -⟩ := List.cons_eq_cons.mp same
      exact absurd List.mem_cons_self cleanOther
  | cons d own ih =>
    cases other with
    | nil =>
      obtain ⟨rfl, -⟩ := List.cons_eq_cons.mp same
      exact absurd List.mem_cons_self clean
    | cons e others =>
      obtain ⟨rfl, tails⟩ := List.cons_eq_cons.mp same
      obtain ⟨rfl, rests⟩ := ih (fun inOwn => clean (List.mem_cons_of_mem d inOwn))
        (fun inOthers => cleanOther (List.mem_cons_of_mem d inOthers)) tails
      exact ⟨rfl, rests⟩

/-- A code point ends at the first brace that closes. -/
theorem code_append_inj (same : escapeCodePoint first ++ rest = escapeCodePoint second ++ more) :
    first = second ∧ rest = more := by
  have noBrace : ∀ c : Char, '\x7d' ∉ hexDigits c.toNat := fun c =>
    not_mem_toDigits (by decide) fun _ => Nat.digitChar_ne '\x7d' (by decide)
  simp only [escapeCodePoint, List.append_assoc, List.cons_append, List.nil_append, List.cons.injEq,
    true_and] at same
  obtain ⟨digits, rests⟩ := append_cons_inj (noBrace first) (noBrace second) same
  exact ⟨Char.toNat_inj.mp (toDigits_injective (by decide) (by decide) digits), rests⟩

/-- What is written of a character tells the character, and where it ends. -/
theorem append_inj (way : Written first written) (wayOther : Written second other)
    (same : written ++ rest = other ++ more) : first = second ∧ rest = more := by
  cases way with
  | plain noEscape =>
    cases wayOther with
    | plain => exact List.cons_eq_cons.mp same
    | short | code => exact absurd (List.cons_eq_cons.mp same).1 noEscape
  | short stands noCode =>
    cases wayOther with
    | plain noEscape => exact absurd (List.cons_eq_cons.mp same).1.symm noEscape
    | short standsOther =>
      obtain ⟨-, marked⟩ := List.cons_eq_cons.mp same
      obtain ⟨rfl, rests⟩ := List.cons_eq_cons.mp marked
      exact ⟨stands.symm.trans standsOther, rests⟩
    | code =>
      obtain ⟨-, marked⟩ := List.cons_eq_cons.mp same
      exact absurd (List.cons_eq_cons.mp marked).1 noCode
  | code =>
    cases wayOther with
    | plain noEscape => exact absurd (List.cons_eq_cons.mp same).1.symm noEscape
    | short _ noCode =>
      obtain ⟨-, marked⟩ := List.cons_eq_cons.mp same
      exact absurd (List.cons_eq_cons.mp marked).1.symm noCode
    | code => exact code_append_inj same

end Written

/-- Different texts are written differently between quotes. -/
theorem flatMap_escapeChar_injective : Function.Injective (List.flatMap escapeChar) := by
  intro first second same
  induction first generalizing second with
  | nil =>
    cases second with
    | nil => rfl
    | cons c rest =>
      rw [List.flatMap_nil, List.flatMap_cons] at same
      exact absurd (List.append_eq_nil_iff.mp same.symm).1 (written_escapeChar c).ne_nil
  | cons c rest ih =>
    cases second with
    | nil =>
      rw [List.flatMap_nil, List.flatMap_cons] at same
      exact absurd (List.append_eq_nil_iff.mp same).1 (written_escapeChar c).ne_nil
    | cons d more =>
      rw [List.flatMap_cons, List.flatMap_cons] at same
      obtain ⟨rfl, rests⟩ := (written_escapeChar c).append_inj (written_escapeChar d) same
      rw [ih rests]

theorem quote_injective : Function.Injective quote := by
  intro first second same
  have chars := List.cons_eq_cons.mp (String.ofList_injective same)
  exact String.toList_inj.mp (flatMap_escapeChar_injective (List.append_cancel_right chars.2))

end Text

/-! ## Literals -/

/-- What a literal stands for: a string stands for its text. -/
inductive Reading where
  | int (value : Int64)
  | float (bits : UInt64)
  | str (text : String)
  | bool (value : Bool)
  deriving DecidableEq

namespace Literal

def reading (names : NameTable) : Literal → Reading
  | .int value => .int value
  | .float bits => .float bits
  | .str text => .str (names.text text)
  | .bool value => .bool value

/-- The kind of a literal, by its text alone. -/
def kindOfText (text : String) : LiteralKind :=
  if text.toList.contains '"' then .str
  else if text = "true" ∨ text = "false" then .bool
  else if text.toList.all isIntegral then .int
  else .float

/-- A text with nothing but what stands in numbers is the text of a number. -/
theorem kindOfText_of_numeric {text : String}
    (numeric : ∀ {c}, c ∈ text.toList → Decimal.isNumeric c = true) :
    kindOfText text = if text.toList.all isIntegral then .int else .float := by
  have noQuote : ¬ text.toList.contains '"' = true := by
    intro quoted
    exact absurd (numeric (List.contains_iff_mem.mp quoted)) (by decide)
  have noWord : ¬ (text = "true" ∨ text = "false") := by
    rintro (rfl | rfl)
    · exact absurd (@numeric 't' (by decide)) (by decide)
    · exact absurd (@numeric 's' (by decide)) (by decide)
  rw [kindOfText, if_neg noQuote, if_neg noWord]

/-- The text of a literal tells its kind. -/
theorem kindOfText_render (names : NameTable) (value : Literal) :
    kindOfText (value.render names) = value.kind := by
  cases value with
  | int value =>
    have integral : (toString value.toInt).toList.all isIntegral = true :=
      List.all_eq_true.mpr fun c => isIntegral_of_mem_toString
    have numeric : ∀ {c}, c ∈ (toString value.toInt).toList → Decimal.isNumeric c = true :=
      fun member => Decimal.isNumeric_of_isIntegral (isIntegral_of_mem_toString member)
    rw [render, kindOfText_of_numeric numeric, if_pos integral]
    rfl
  | float bits =>
    have noInteger : ¬ (Decimal.floatText bits).toList.all isIntegral = true := by
      intro integral
      obtain ⟨c, member, isMark⟩ := Decimal.exists_mem_floatText_not_isIntegral bits
      rw [List.all_eq_true.mp integral c member] at isMark
      cases isMark
    rw [render, kindOfText_of_numeric Decimal.isNumeric_of_mem_floatText, if_neg noInteger]
    rfl
  | str text =>
    have quoted : (Text.quote (names.text text)).toList.contains '"' = true := by
      simp [Text.quote]
    exact if_pos quoted
  | bool value =>
    cases value with
    | true => exact (by decide : kindOfText "true" = .bool)
    | false => exact (by decide : kindOfText "false" = .bool)

variable {names : NameTable} {first second : Literal}

theorem kind_eq_of_render_eq (same : first.render names = second.render names) :
    first.kind = second.kind := by
  rw [← kindOfText_render names first, ← kindOfText_render names second, same]

/-- The text of a literal that is no floating number tells what the literal stands for. -/
theorem reading_eq_of_render_eq (notFloats : ¬ (first.kind = .float ∧ second.kind = .float))
    (same : first.render names = second.render names) :
    first.reading names = second.reading names := by
  have sameKind := kind_eq_of_render_eq same
  cases first with
  | int value =>
    cases second with
    | int other =>
      have values : value.toInt = other.toInt := Int.repr_inj.mp same
      rw [Int64.toInt_inj.mp values]
    | float | str | bool => cases sameKind
  | float bits => exact absurd ⟨rfl, sameKind.symm⟩ notFloats
  | str text =>
    cases second with
    | str other => exact congrArg Reading.str (Text.quote_injective same)
    | int | float | bool => cases sameKind
  | bool value =>
    cases second with
    | bool other =>
      have words : ∀ first second : Bool, (if first then "true" else "false") =
          (if second then "true" else "false") → first = second := by decide
      rw [words value other same]
    | int | float | str => cases sameKind

theorem render_eq_of_reading_eq (same : first.reading names = second.reading names) :
    first.render names = second.render names := by
  cases first <;> cases second <;> simp_all [reading, render]

/-- Two literals, not both floating numbers, have the same text exactly if they stand for the same:
for the same integer, the same boolean or the same text. The text of a string stays on its line, and
is the text of nothing but a string. -/
theorem render_eq_iff (names : NameTable) (first second : Literal)
    (notFloats : ¬ (first.kind = .float ∧ second.kind = .float)) :
    (first.render names = second.render names ↔ first.reading names = second.reading names) ∧
    (first.kind = .str → OneLine (first.render names) ∧
      (second.kind ≠ .str → first.render names ≠ second.render names)) := by
  refine ⟨⟨reading_eq_of_render_eq notFloats, render_eq_of_reading_eq⟩, fun isString => ?_⟩
  refine ⟨oneLine_render names first, fun other same => ?_⟩
  exact other ((kind_eq_of_render_eq same).symm.trans isString)

/-- A text that looks like the escape of an accent, and the accent. -/
def lookalikes : NameTable :=
  ((NameTable.initial.intern "\\u\x7b301\x7d").2.intern "\u0301").2

theorem render_eq_iff_lookalikes :
    (Literal.str ⟨1⟩).render lookalikes = "\"\\\\u\x7b301\x7d\"" ∧
    (Literal.str ⟨2⟩).render lookalikes = "\"\\u\x7b301\x7d\"" ∧
    (Literal.str ⟨1⟩).render lookalikes ≠ (Literal.str ⟨2⟩).render lookalikes := by
  refine ⟨by decide +kernel, by decide +kernel, ?_⟩
  have differ : (Literal.str ⟨1⟩).reading lookalikes ≠ (Literal.str ⟨2⟩).reading lookalikes := by
    decide +kernel
  exact (render_eq_iff lookalikes (.str ⟨1⟩) (.str ⟨2⟩) (by decide)).1.not.mpr differ

end Literal

end Declarations
