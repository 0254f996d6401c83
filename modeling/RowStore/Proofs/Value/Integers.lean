import Mathlib
import RowStore.Proofs.Text.Integer
import RowStore.Proofs.Value.Encoding

/-! Integers in fields.

A field is read as an integer if it is a sign and digits with white space around them, however many
digits there are. What is read is the number modulo the size of the type: counting modulo 2 ^ 64 on the
way, negating there and taking a smaller part of the word in the end all keep the residue.
-/

namespace RowStore

namespace Text

variable {text digits : List Char}

section Trimming

/-- White space only. -/
def IsBlank (text : List Char) : Prop := ∀ c ∈ text, isBlank c = true

theorem exists_trim (text : List Char) :
    ∃ before after, text = before ++ trim text ++ after ∧ IsBlank before ∧ IsBlank after :=
  (isCore_core isBlank text).around

end Trimming

section Grammar

/-- An optional sign and at least one digit. -/
def IsInteger (sign digits : List Char) : Prop := IsSign sign ∧ IsDigits digits ∧ digits ≠ []

/-- The number that a sign and digits write. -/
def signedValue (sign digits : List Char) : Int :=
  if sign = ['-'] then -(digitsValue digits : Int) else digitsValue digits

/-- A sign and digits stand in a text with nothing but white space around them. -/
def Shows (text sign digits : List Char) : Prop :=
  IsInteger sign digits ∧ ∃ before after, text = before ++ (sign ++ digits) ++ after ∧
    IsBlank before ∧ IsBlank after

theorem shows_iff {sign : List Char} :
    Shows text sign digits ↔ IsInteger sign digits ∧ trim text = sign ++ digits := by
  constructor
  · rintro ⟨integer, before, after, rfl, front, back⟩
    have read : IsDigits (splitSign (sign ++ digits)).2 := by
      rw [splitSign_digits integer.1 integer.2.1]
      exact integer.2.1
    exact ⟨integer, trim_surrounded _ _ _ front (isBlank_of_mem_integer read) back⟩
  · rintro ⟨integer, trimmed⟩
    obtain ⟨before, after, written, front, back⟩ := exists_trim text
    exact ⟨integer, before, after, trimmed ▸ written, front, back⟩

/-- The first character that is no digit is refused. -/
theorem accumulate_eq_error (other : ¬ IsDigits digits) (text : List Char) (value : Int64) :
    accumulate text value digits = .error (malformed text .unexpectedCharacter) := by
  induction digits generalizing value with
  | nil => exact absurd (List.forall_mem_nil _) other
  | cons c digits ih =>
      rw [accumulate, digit?_eq]
      by_cases digit : isDigit c = true
      · rw [if_pos digit]
        exact ih (fun read => other (Phase.isDigits_cons.mpr ⟨digit, read⟩)) _
      · rw [if_neg digit]

theorem readInteger_of_integer {sign : List Char} (integer : IsInteger sign digits) :
    readInteger (sign ++ digits) = .ok (Int64.ofInt (signedValue sign digits)) := by
  obtain ⟨signed, read, some⟩ := integer
  have split := splitSign_digits signed read
  rw [readInteger_digits (by rwa [split]) (by rwa [split]), integerValue, split]
  simp only [decide_eq_true_eq, signedValue]

theorem exists_flaw (other : ¬ ∃ sign digits, text = sign ++ digits ∧ IsInteger sign digits) :
    ∃ flaw, readInteger text = .error (malformed text flaw) := by
  obtain ⟨sign, signed, written⟩ := exists_sign text
  rw [readInteger]
  by_cases empty : (splitSign text).2 = []
  · exact ⟨.noDigits, by simp [empty]⟩
  · have noDigits : ¬ IsDigits (splitSign text).2 := fun read =>
      other ⟨sign, _, written, signed, read, empty⟩
    exact ⟨.unexpectedCharacter, by simp [empty, accumulate_eq_error noDigits, Except.map]⟩

end Grammar

end Text

/-- The element that an integer is taken to is the one of its type with the same residue. -/
theorem IntType.eq_wrap_iff {type : IntType} {value number : Int} :
    number = (type.wrap value).val ↔ type.Holds number ∧ number ≡ value [ZMOD 2 ^ type.width.bits] := by
  have modulus : (2 : Int) ^ type.width.bits = type.modulus := by
    rw [modulus_eq, IntWidth.bits, pow_mul]
    norm_num
  rw [modulus, Int.modEq_iff_dvd]
  obtain ⟨signed, width⟩ := type
  cases signed <;> cases width <;>
    simp only [wrap, Holds, residue, least, greatest, IntType.modulus, IntWidth.size, UInt8.size,
      UInt16.size, UInt32.size, UInt64.size, Bool.false_eq_true, if_true, if_false] <;>
    omega

namespace ColumnType

/-- What a text shows is read modulo 2 ^ 64, and then taken to the element of the type. -/
theorem parse_of_shows [CalendarText] {text sign digits : List Char} (type : IntType)
    (shows : Text.Shows text sign digits) :
    (ColumnType.integer type).parse text =
      .ok (.integer type (type.wrap (Text.signedValue sign digits))) := by
  obtain ⟨integer, trimmed⟩ := Text.shows_iff.mp shows
  rw [parse, trimmed, Text.readInteger_of_integer integer]
  simp only [Except.map, IntType.wrap_toInt_ofInt]

theorem parse_of_not_shows [CalendarText] {text : List Char} (type : IntType)
    (other : ¬ ∃ sign digits, Text.Shows text sign digits) :
    ∃ flaw, (ColumnType.integer type).parse text =
      .error (.malformedNumber (String.ofList (Text.trim text)) flaw) := by
  have unread : ¬ ∃ sign digits, Text.trim text = sign ++ digits ∧ Text.IsInteger sign digits := by
    rintro ⟨sign, digits, trimmed, integer⟩
    exact other ⟨sign, digits, Text.shows_iff.mpr ⟨integer, trimmed⟩⟩
  obtain ⟨flaw, refused⟩ := Text.exists_flaw unread
  refine ⟨flaw, ?_⟩
  rw [parse, refused]
  rfl

/-- A field is read as an integer just if it is an optional sign and digits with white space around
them. The value is the one number of the type that is congruent to what is written there modulo the
size of the type. Any other field is refused, and the refusal shows it without white space around. -/
theorem parse_integer_iff [CalendarText] (type : IntType) (text : List Char) :
    (∀ value, (ColumnType.integer type).parse text = .ok value ↔
      ∃ sign digits, Text.Shows text sign digits ∧ ∃ element : type.Elem,
        value = .integer type element ∧ ∀ number, number = element.val ↔
          type.Holds number ∧ number ≡ Text.signedValue sign digits [ZMOD 2 ^ type.width.bits]) ∧
      ((∃ flaw, (ColumnType.integer type).parse text =
          .error (.malformedNumber (String.ofList (Text.trim text)) flaw)) ↔
        ¬ ∃ sign digits, Text.Shows text sign digits) := by
  by_cases shown : ∃ sign digits, Text.Shows text sign digits
  · obtain ⟨sign, digits, shows⟩ := shown
    have parsed := parse_of_shows type shows
    constructor
    · intro value
      constructor
      · intro same
        cases parsed.symm.trans same
        exact ⟨sign, digits, shows, _, rfl, fun number => IntType.eq_wrap_iff⟩
      · rintro ⟨sign', digits', shows', element, rfl, unique⟩
        have same : (type.wrap (Text.signedValue sign' digits')).val = element.val :=
          (unique _).mpr (IntType.eq_wrap_iff.mp rfl)
        rw [parse_of_shows type shows', Subtype.ext same]
    · simp only [parsed, reduceCtorEq, exists_false, false_iff, not_not]
      exact ⟨sign, digits, shows⟩
  · obtain ⟨flaw, refused⟩ := parse_of_not_shows type shown
    constructor
    · intro value
      rw [refused]
      refine iff_of_false (by simp) ?_
      rintro ⟨sign, digits, shows, -⟩
      exact shown ⟨sign, digits, shows⟩
    · exact iff_of_true ⟨flaw, refused⟩ shown

/-- White space is skipped, and one below the least number is the greatest. -/
example [CalendarText] : (ColumnType.integer .int8).parse " -129\t".toList =
    .ok (.integer .int8 ⟨127, by decide⟩) := by
  rfl

end ColumnType

end RowStore
