import Mathlib
import RowStore.Environment
import RowStore.Proofs.Evidence.Counting
import RowStore.Proofs.Text.Counters
import RowStore.Proofs.Text.Integer

/-! What the evidence of a column says of its fields.

The evidence counts the empty fields, and keeps whether a point or an exponent mark was seen and how
far from zero the integers lie. From what it keeps follows the type that is deduced, which is said
here of the fields themselves: by what reading them as decimals refuses. The two agree as long as
reading can count the digits of a field; past that it stops before it has seen what the evidence has.
-/

namespace RowStore

variable {fields : List String}

section Fitting

/-- The narrowest signed type that holds every one of the numbers. -/
def IntType.narrowest? (numbers : List Int) : Option IntType :=
  [int8, int16, int32, int64].find? fun type => ∀ number ∈ numbers, type.Holds number

/-- Does a numeric text need a type with a fraction? -/
def Text.IsFractional (text : List Char) : Prop := '.' ∈ text ∨ 'e' ∈ text ∨ 'E' ∈ text

instance (text : List Char) : Decidable (Text.IsFractional text) := inferInstanceAs (Decidable (_ ∨ _))

/-- Is a text refused as malformed when it is read as a decimal? -/
def Text.isRefused (text : List Char) : Bool :=
  match readDecimal text with
  | .error (.malformedNumber _ _) => true
  | _ => false

/-- The type that fits a column with these fields. -/
def fittingType (fields : List String) : ColumnType :=
  if ∃ field ∈ fields, field = "" ∨ Text.isRefused field.toList then .string
  else if ∃ field ∈ fields, Text.IsFractional field.toList then .double
  else
    match IntType.narrowest? (fields.map fun field => Text.integerValue field.toList) with
    | some type => .integer type
    | none => .string

end Fitting

namespace Text

theorem IsDecimal.digits {text : List Char} (decimal : IsDecimal text)
    (whole : ¬ IsFractional text) :
    IsDigits (splitSign text).2 ∧ (splitSign text).2 ≠ [] := by
  obtain ⟨sign, mantissa, exponent, rfl, signed, mantissa_of, exponent_of⟩ := decimal
  simp only [IsFractional, List.mem_append, not_or] at whole
  obtain ⟨point, small, large⟩ := whole
  rcases exponent_of with rfl | ⟨mark, sign', digits, rfl, mark_of, -⟩
  · obtain ⟨digits, fraction, read, read', some, rfl | rfl⟩ := mantissa_of
    · have all : IsDigits (digits ++ fraction) := List.forall_mem_append.mpr ⟨read, read'⟩
      rw [List.append_nil, splitSign_digits signed all]
      exact ⟨all, some⟩
    · exact absurd point (by simp)
  · rcases mark_of with rfl | rfl
    · exact absurd small (by simp)
    · exact absurd large (by simp)

theorem Uncountable.lt_length {text : List Char} (uncountable : Uncountable text) :
    counterLimit < text.length := by
  obtain ⟨sign, whole, fraction, rest, rfl, -, -, -, long⟩ := uncountable
  simp only [List.length_append, List.length_cons]
  omega

theorem Unscalable.isDecimal {text : List Char} (unscalable : Unscalable text) : IsDecimal text := by
  obtain ⟨sign, whole, fraction, mark, digits, written, signed, readWhole, read, some, marked,
    readPower, somePower, -⟩ := unscalable
  refine ⟨sign, whole ++ '.' :: fraction, mark :: ('-' :: digits), ?_, signed,
    ⟨whole, fraction, readWhole, read, ?_, .inr rfl⟩,
    .inr ⟨mark, ['-'], digits, rfl, marked, .inr (.inr rfl), readPower, somePower⟩⟩
  · simp [written]
  · simp [some]

/-- What is refused are the texts that are no decimals, as far as their digits can be counted. -/
theorem isRefused_eq {text : List Char} (countable : ¬ Uncountable text) :
    isRefused text = !decide (IsDecimal text) := by
  rw [isRefused]
  rcases readDecimal_cases text with ⟨decimal, ⟨value, read⟩ | trapped⟩ |
    ⟨flawed, ⟨flaw, refused⟩ | ⟨-, trapped⟩⟩
  · simp [read, decimal]
  · simp [trapped, decimal]
  · simp [refused, malformed, flawed]
  · have unscalable := ((readDecimal_trap_iff text).mp trapped).resolve_left countable
    exact absurd unscalable.isDecimal flawed

end Text

theorem exists_refused_iff (countable : ∀ field ∈ fields, ¬ Text.Uncountable field.toList) :
    (∃ field ∈ fields, field = "" ∨ Text.isRefused field.toList) ↔
      ∃ field ∈ fields, ¬ Text.IsDecimal field.toList := by
  have empty : ¬ Text.IsDecimal [] := by decide
  refine exists_congr fun field => and_congr_right fun found => ?_
  rw [Text.isRefused_eq (countable field found)]
  by_cases content : field = ""
  · simp [content, empty]
  · simp [content]

namespace Magnitude

theorem rank_max_le {left right : Magnitude} {bound : Nat} :
    (left.max right).rank ≤ bound ↔ left.rank ≤ bound ∧ right.rank ≤ bound := by
  rw [max]
  split <;> omega

theorem fits_iff {width : IntWidth} {negative : Bool} {number : Nat} :
    fits width negative number = true ↔
      IntType.Holds ⟨true, width⟩ (if negative then -(number : Int) else number) := by
  cases width <;> cases negative <;>
    simp only [fits, IntType.Holds, IntType.least, IntType.greatest, IntWidth.size, UInt8.size,
      UInt16.size, UInt32.size, UInt64.size, if_true, Bool.false_eq_true, if_false,
      decide_eq_true_eq] <;>
    omega

theorem fits_of_rank_le {narrow wide : IntWidth} {negative : Bool} {number : Nat}
    (wider : narrow.rank ≤ wide.rank) (within : fits narrow negative number = true) :
    fits wide negative number = true := by
  simp only [fits, decide_eq_true_eq] at within ⊢
  cases narrow <;> cases wide <;>
    simp only [IntWidth.rank, IntWidth.size, UInt8.size, UInt16.size, UInt32.size, UInt64.size]
      at wider within ⊢ <;>
    omega

theorem rank_ofNumber_le {width : IntWidth} {negative : Bool} {number : Nat} :
    (ofNumber negative number).rank ≤ width.rank ↔ fits width negative number = true := by
  have least (found : IntWidth) (fitting : fits found negative number = true)
      (narrower : ∀ narrow, narrow.rank < found.rank → ¬ fits narrow negative number = true) :
      (within found).rank ≤ width.rank ↔ fits width negative number = true := by
    refine ⟨fun wider => fits_of_rank_le wider fitting, fun fitting' => ?_⟩
    by_contra above
    exact narrower width (not_le.mp above) fitting'
  rw [ofNumber]
  split_ifs with first second third fourth
  · refine least .w8 first ?_
    intro narrow lower
    exact absurd lower (Nat.not_lt_zero _)
  · refine least .w16 second ?_
    intro narrow lower
    cases narrow with
    | w8 => exact first
    | _ => exact absurd lower (by decide)
  · refine least .w32 third ?_
    intro narrow lower
    cases narrow with
    | w8 => exact first
    | w16 => exact second
    | _ => exact absurd lower (by decide)
  · refine least .w64 fourth ?_
    intro narrow lower
    cases narrow with
    | w8 => exact first
    | w16 => exact second
    | w32 => exact third
    | w64 => exact absurd lower (by decide)
  -- No width has the rank of what is beyond all of them.
  · have widest : width.rank ≤ IntWidth.w64.rank := by cases width <;> decide
    have beyondAll : ¬ (beyond.rank ≤ width.rank) := not_le.mpr (Nat.lt_succ_of_le widest)
    exact iff_of_false beyondAll fun fitting => fourth (fits_of_rank_le widest fitting)

/-- Beyond the widest type it does not matter how far a magnitude lies. -/
theorem fits_saturated (width : IntWidth) (negative : Bool) (number : Nat) :
    fits width negative (min number FieldScan.magnitudeLimit) = fits width negative number := by
  cases width <;> cases negative <;>
    simp only [fits, FieldScan.magnitudeLimit, IntWidth.size, UInt8.size, UInt16.size, UInt32.size,
      UInt64.size, if_true, Bool.false_eq_true, if_false, decide_eq_decide] <;>
    omega

theorem narrowest?_eq {magnitude : Magnitude} (numbers : List Int)
    (graded : ∀ width, magnitude.rank ≤ width.rank ↔
      ∀ number ∈ numbers, IntType.Holds ⟨true, width⟩ number) :
    (IntType.narrowest? numbers).map .integer = magnitude.type? := by
  have searched : IntType.narrowest? numbers =
      [IntType.int8, .int16, .int32, .int64].find? fun type => magnitude.rank ≤ type.width.rank := by
    refine List.find?_congr fun type candidate => decide_eq_decide.mpr ?_
    rw [graded type.width]
    simp only [List.mem_cons, List.not_mem_nil, or_false] at candidate
    rcases candidate with rfl | rfl | rfl | rfl <;> rfl
  rw [searched]
  rcases magnitude with (_ | _ | _ | _) | _ <;> rfl

end Magnitude

namespace Evidence

variable {evidence : Evidence}

theorem foldl_push_marks (evidence : Evidence) (text : List Char) :
    (text.foldl push evidence).pointSeen = (evidence.pointSeen || decide ('.' ∈ text)) ∧
      (text.foldl push evidence).exponentSeen =
        (evidence.exponentSeen || decide ('e' ∈ text ∨ 'E' ∈ text)) := by
  induction text generalizing evidence with
  | nil => simp
  | cons c text ih =>
      have pushed : (evidence.push c).pointSeen = (evidence.pointSeen || decide ('.' = c)) ∧
          (evidence.push c).exponentSeen =
            (evidence.exponentSeen || decide ('e' = c ∨ 'E' = c)) := by
        rw [push]
        by_cases digit : Text.isDigit c = true
        · obtain ⟨-, -, point, small, large⟩ := Text.ne_of_isDigit digit
          simp [classify_digit digit, pushDigit, point.symm, small.symm, large.symm]
        by_cases sign : c = '+' ∨ c = '-'
        · rw [classify_sign sign, pushSign]
          rcases sign with rfl | rfl <;> split_ifs <;> simp
        by_cases point : c = '.'
        · simp [point, classify_point, pushPoint]
        by_cases mark : c = 'e' ∨ c = 'E'
        · rw [classify_mark mark, pushMark]
          rcases mark with rfl | rfl <;> simp
        · obtain ⟨small, large⟩ := not_or.mp mark
          rw [classify_other (by simpa using digit) sign point mark]
          simp [Ne.symm point, Ne.symm small, Ne.symm large]
      obtain ⟨points, marks⟩ := ih (evidence.push c)
      rw [List.foldl_cons, points, marks, pushed.1, pushed.2]
      simp [List.mem_cons, Bool.or_assoc, Bool.or_left_comm]

/-- The integer part of a field that is only digits so far grows by the digits fed. -/
theorem foldl_push_digits {digits : List Char} (read : Text.IsDigits digits) {number : Nat}
    (whole : evidence.field.points = 0 ∧ evidence.field.inExponent = false)
    (value : evidence.field.magnitude = min number FieldScan.magnitudeLimit) :
    (digits.foldl push evidence).field.points = 0 ∧
      (digits.foldl push evidence).field.inExponent = false ∧
      (digits.foldl push evidence).field.negative = evidence.field.negative ∧
      (digits.foldl push evidence).field.magnitude =
        min (digits.foldl (fun value c => 10 * value + (c.toNat - 48)) number)
          FieldScan.magnitudeLimit := by
  induction digits generalizing evidence number with
  | nil => exact ⟨whole.1, whole.2, rfl, value⟩
  | cons c digits ih =>
      obtain ⟨digit, read⟩ := Text.Phase.isDigits_cons.mp read
      have next : (evidence.push c).field.points = 0 ∧ (evidence.push c).field.inExponent = false ∧
          (evidence.push c).field.negative = evidence.field.negative ∧
          (evidence.push c).field.magnitude =
            min (10 * number + (c.toNat - 48)) FieldScan.magnitudeLimit := by
        rw [push, classify_digit digit]
        simp only [pushDigit, FieldScan.digit, whole, value, Bool.false_eq_true, if_false, if_true,
          true_and]
        omega
      obtain ⟨points, inExponent, negative, magnitude⟩ := next
      obtain ⟨points', inExponent', negative', magnitude'⟩ := ih read ⟨points, inExponent⟩ magnitude
      exact ⟨points', inExponent', negative'.trans negative, magnitude'⟩

/-- The integer of a whole field is graded as the number that the field writes. -/
theorem rank_foldl_push (closed : evidence.field = .empty) {text : List Char}
    (decimal : Text.IsDecimal text) (whole : ¬ Text.IsFractional text) :
    (text.foldl push evidence).field.points = 0 ∧
      (text.foldl push evidence).field.inExponent = false ∧
      ∀ width, (Magnitude.ofNumber (text.foldl push evidence).field.negative
        (text.foldl push evidence).field.magnitude).rank ≤ width.rank ↔
          IntType.Holds ⟨true, width⟩ (Text.integerValue text) := by
  obtain ⟨read, -⟩ := decimal.digits whole
  suffices reads : ∃ start : Evidence,
      text.foldl push evidence = (Text.splitSign text).2.foldl push start ∧
      start.field.points = 0 ∧ start.field.inExponent = false ∧
      start.field.negative = (Text.splitSign text).1 ∧ start.field.magnitude = 0 by
    obtain ⟨start, fed, points, inExponent, negative, magnitude⟩ := reads
    obtain ⟨points, inExponent, negative', magnitude⟩ :=
      foldl_push_digits read ⟨points, inExponent⟩ (magnitude.trans (Nat.zero_min _).symm)
    rw [fed]
    refine ⟨points, inExponent, fun width => ?_⟩
    rw [magnitude, negative', negative, Magnitude.rank_ofNumber_le, Magnitude.fits_saturated,
      Magnitude.fits_iff]
    rfl
  have signed (minus : Bool) (c : Char) (sign : c = '+' ∨ c = '-') (same : decide (c = '-') = minus) :
      (evidence.push c).field.points = 0 ∧ (evidence.push c).field.inExponent = false ∧
        (evidence.push c).field.negative = minus ∧ (evidence.push c).field.magnitude = 0 := by
    rw [push, classify_sign sign, pushSign, closed]
    exact ⟨rfl, rfl, same, rfl⟩
  unfold Text.splitSign
  split
  · exact ⟨_, rfl, signed true '-' (.inr rfl) rfl⟩
  · exact ⟨_, rfl, signed false '+' (.inl rfl) rfl⟩
  · exact ⟨evidence, rfl, closed ▸ ⟨rfl, rfl, rfl, rfl⟩⟩

theorem observe_empty (closed : evidence.field = .empty) :
    evidence.observe "" = { evidence with empty := evidence.empty + 1 } := by
  obtain ⟨nonNumeric, signSeen, pointSeen, exponentSeen, magnitude, width, empty, nonEmpty, field⟩ :=
    evidence
  obtain rfl : field = .empty := closed
  rfl

theorem magnitude_settle {scan : FieldScan} (fed : scan.chars ≠ 0)
    (unflagged : (evidence.settle scan).nonNumeric = false) (points : scan.points = 0)
    (inExponent : scan.inExponent = false) :
    (evidence.settle scan).magnitude =
      evidence.magnitude.max (.ofNumber scan.negative scan.magnitude) := by
  rw [settle, if_neg fed] at unflagged ⊢
  split_ifs at unflagged ⊢ <;> simp_all

/-- What the evidence of a column has kept of its fields. -/
structure Summarises (fields : List String) (evidence : Evidence) : Prop where
  closed : evidence.field = .empty
  empty : evidence.empty ≠ 0 ↔ "" ∈ fields
  nonEmpty : evidence.nonEmpty ≠ 0 ↔ ∃ field ∈ fields, field ≠ ""
  nonNumeric : evidence.nonNumeric = true ↔
    ∃ field ∈ fields, field ≠ "" ∧ ¬ Text.IsDecimal field.toList
  fractional : (evidence.pointSeen || evidence.exponentSeen) = true ↔
    ∃ field ∈ fields, Text.IsFractional field.toList
  magnitude : (∀ field ∈ fields, Text.IsDecimal field.toList ∧ ¬ Text.IsFractional field.toList) →
    ∀ width, evidence.magnitude.rank ≤ width.rank ↔
      ∀ field ∈ fields, IntType.Holds ⟨true, width⟩ (Text.integerValue field.toList)

theorem summarises_none : Summarises [] none where
  closed := rfl
  empty := by simp [none]
  nonEmpty := by simp [none]
  nonNumeric := by simp [none]
  fractional := by simp [none]
  magnitude _ width := by simp [none, Magnitude.rank, IntWidth.rank]

theorem chars_ne_zero {text : List Char} (content : text ≠ []) :
    (text.foldl push evidence).field.chars ≠ 0 := by
  have some : text.length ≠ 0 := by simpa using content
  rw [chars_foldl_push]
  omega

theorem observe_eq_settle (evidence : Evidence) {field : String} (content : field ≠ "") :
    ∃ counted : Evidence,
      evidence.observe field = counted.settle (field.toList.foldl push evidence).field ∧
      counted.field = .empty ∧ counted.empty = evidence.empty ∧
      counted.nonEmpty = evidence.nonEmpty + 1 ∧ counted.magnitude = evidence.magnitude ∧
      (counted.pointSeen || counted.exponentSeen) =
        (evidence.pointSeen || evidence.exponentSeen ||
          decide (Text.IsFractional field.toList)) := by
  have some : field.toList ≠ [] := by simpa using content
  obtain ⟨empty, nonEmpty, magnitude⟩ := foldl_push_counts evidence field.toList
  obtain ⟨points, marks⟩ := foldl_push_marks evidence field.toList
  rw [observe, endField, if_neg (by simp [chars_ne_zero some])]
  refine ⟨_, rfl, rfl, empty, congrArg (· + 1) nonEmpty, magnitude, ?_⟩
  rw [Bool.eq_iff_iff]
  simp only [points, marks, Bool.or_eq_true, decide_eq_true_eq]
  rw [Text.IsFractional]
  tauto

/-- Observing one more field keeps the summary true. -/
theorem Summarises.observe (summary : Summarises fields evidence)
    (field : String) : Summarises (fields ++ [field]) (evidence.observe field) := by
  -- An empty field is counted, and changes nothing else.
  by_cases content : field = ""
  · subst content
    rw [observe_empty summary.closed]
    refine ⟨summary.closed, by simp, ?_, ?_, ?_, ?_⟩
    · simpa using summary.nonEmpty
    · simpa using summary.nonNumeric
    · simpa [Text.IsFractional] using summary.fractional
    · intro plain
      exact absurd (plain "" (by simp)).1 (by decide)
  have some : field.toList ≠ [] := by simpa using content
  have flagged : (evidence.observe field).nonNumeric =
      (evidence.nonNumeric || !decide (Text.IsDecimal field.toList)) :=
    nonNumeric_endField summary.closed some _
  obtain ⟨counted, observed, closed, empty, nonEmpty, magnitude, marks⟩ :=
    observe_eq_settle evidence content
  obtain ⟨closed', empty', nonEmpty', points, exponents⟩ :=
    settle_frame counted (field.toList.foldl push evidence).field
  rw [← observed] at closed' empty' nonEmpty' points exponents
  refine ⟨closed'.trans closed, ?_, ?_, ?_, ?_, ?_⟩
  · rw [empty', empty, summary.empty]
    simp [Ne.symm content]
  · rw [nonEmpty', nonEmpty]
    simpa using .inr content
  · rw [flagged, Bool.or_eq_true, summary.nonNumeric]
    simp [or_and_right, exists_or, content]
  · rw [points, exponents, marks, Bool.or_eq_true, summary.fractional]
    simp [or_and_right, exists_or]
  · intro plain width
    obtain ⟨before, decimal, whole⟩ := List.forall_mem_append.mp plain |>.imp_right (by simpa using ·)
    obtain ⟨noPoint, noMark, graded⟩ := rank_foldl_push summary.closed decimal whole
    have numeric : evidence.nonNumeric = false := by
      rw [← Bool.not_eq_true, summary.nonNumeric]
      rintro ⟨other, found, -, flawed⟩
      exact flawed (before other found).1
    have unflagged : (evidence.observe field).nonNumeric = false := by
      simp [flagged, numeric, decimal]
    rw [observed, magnitude_settle (chars_ne_zero some) (observed ▸ unflagged) noPoint noMark,
      magnitude, Magnitude.rank_max_le, graded, summary.magnitude before]
    simp [or_imp, forall_and]

theorem summarises_foldl (fields : List String) :
    Summarises fields (fields.foldl Evidence.observe none) := by
  induction fields using List.reverseRecOn with
  | nil => exact summarises_none
  | append_singleton fields field ih =>
      rw [List.foldl_append]
      exact ih.observe field

section Deduced

/-- Some field has been counted. -/
def Counts (evidence : Evidence) : Prop := evidence.empty ≠ 0 ∨ evidence.nonEmpty ≠ 0

/-- The column can only be text: a field is empty or no number. -/
def textual (evidence : Evidence) : Bool := evidence.nonNumeric || 0 < evidence.empty

def fractional (evidence : Evidence) : Bool := evidence.pointSeen || evidence.exponentSeen

/-- What is left of the deduction of a column once a field has been counted. -/
theorem deduce_type (counts : evidence.Counts) :
    evidence.deduce.type =
      if evidence.textual then .string
      else if evidence.fractional then .double
      else evidence.magnitude.type?.getD .string := by
  rw [deduce, textual, fractional]
  by_cases blank : evidence.nonEmpty = 0
  · have some : 0 < evidence.empty := Nat.pos_of_ne_zero (counts.resolve_right (not_not.mpr blank))
    simp [blank, some]
  · rw [if_neg blank]
    split_ifs
    · rfl
    · rfl
    · cases evidence.magnitude <;> rfl

end Deduced

namespace Summarises

theorem counts (summary : Summarises fields evidence) (some : fields ≠ []) : evidence.Counts := by
  obtain ⟨field, found⟩ := List.exists_mem_of_ne_nil fields some
  by_cases content : field = ""
  · exact .inl (summary.empty.mpr (content ▸ found))
  · exact .inr (summary.nonEmpty.mpr ⟨field, found, content⟩)

theorem textual_eq_false_iff (summary : Summarises fields evidence) :
    evidence.textual = false ↔ ∀ field ∈ fields, Text.IsDecimal field.toList := by
  have undecimal : ¬ Text.IsDecimal "".toList := by decide
  have empty : ¬ 0 < evidence.empty ↔ "" ∉ fields :=
    not_congr (Nat.pos_iff_ne_zero.trans summary.empty)
  rw [textual, Bool.or_eq_false_iff, ← Bool.not_eq_true, summary.nonNumeric,
    decide_eq_false_iff_not, empty]
  constructor
  · rintro ⟨numeric, full⟩ field found
    by_contra flawed
    by_cases content : field = ""
    · exact full (content ▸ found)
    · exact numeric ⟨field, found, content, flawed⟩
  · intro decimals
    refine ⟨?_, fun found => undecimal (decimals "" found)⟩
    rintro ⟨field, found, -, flawed⟩
    exact flawed (decimals field found)

theorem fractional_iff (summary : Summarises fields evidence) :
    evidence.fractional = true ↔ ∃ field ∈ fields, Text.IsFractional field.toList :=
  summary.fractional

theorem type_eq (summary : Summarises fields evidence) (some : fields ≠ [])
    (countable : ∀ field ∈ fields, ¬ Text.Uncountable field.toList) :
    evidence.deduce.type = fittingType fields := by
  have numeric : evidence.textual = true ↔
      ∃ field ∈ fields, field = "" ∨ Text.isRefused field.toList := by
    rw [← Bool.not_eq_false, summary.textual_eq_false_iff, exists_refused_iff countable]
    push Not
    rfl
  simp only [deduce_type (summary.counts some), fittingType, numeric, summary.fractional_iff]
  split_ifs with textual fraction
  · rfl
  · rfl
  · rw [exists_refused_iff countable] at textual
    push Not at textual fraction
    have graded := summary.magnitude fun field found =>
      ⟨textual field found, fraction field found⟩
    rw [← Magnitude.narrowest?_eq (fields.map fun field => Text.integerValue field.toList)
      (by simpa using graded)]
    cases IntType.narrowest? (fields.map fun field => Text.integerValue field.toList) <;> rfl

end Summarises

end Evidence

theorem ColumnType.parse_integer [CalendarText] {text : List Char} (decimal : Text.IsDecimal text)
    (whole : ¬ Text.IsFractional text) {type : IntType} (holds : type.Holds (Text.integerValue text)) :
    (ColumnType.integer type).parse text =
      .ok (.integer type ⟨Text.integerValue text, holds⟩) := by
  obtain ⟨read, some⟩ := decimal.digits whole
  simp only [parse, Text.trim_eq_self (Text.isBlank_of_mem_integer read),
    Text.readInteger_digits read some, Except.map, IntType.wrap_toInt_ofInt,
    IntType.wrap_of_holds holds]

/-- Where an integer type fits, it reads every field as the number that the field writes. -/
theorem parse_of_fittingType [CalendarText]
    (countable : ∀ field ∈ fields, ¬ Text.Uncountable field.toList) {type : IntType}
    (fits : fittingType fields = .integer type) {field : String} (found : field ∈ fields) :
    ∃ holds : type.Holds (Text.integerValue field.toList),
      (ColumnType.integer type).parse field.toList =
        .ok (.integer type ⟨Text.integerValue field.toList, holds⟩) := by
  by_cases textual : ∃ field ∈ fields, field = "" ∨ Text.isRefused field.toList
  · simp [fittingType, if_pos textual] at fits
  by_cases fraction : ∃ field ∈ fields, Text.IsFractional field.toList
  · simp [fittingType, if_neg textual, if_pos fraction] at fits
  rw [fittingType, if_neg textual, if_neg fraction] at fits
  split at fits
  · rename_i narrowest searched
    obtain rfl : narrowest = type := by simpa using fits
    have all := List.find?_some searched
    have holds : narrowest.Holds (Text.integerValue field.toList) :=
      of_decide_eq_true all _ (List.mem_map_of_mem found)
    rw [exists_refused_iff countable] at textual
    have decimal : Text.IsDecimal field.toList := by
      by_contra flawed
      exact textual ⟨field, found, flawed⟩
    exact ⟨holds, ColumnType.parse_integer decimal (fun whole => fraction ⟨field, found, whole⟩) holds⟩
  · simp at fits

section Late

variable {digits : Nat}

/-- A point, digits and a letter. -/
def lateLetter (digits : Nat) : String :=
  String.ofList ('.' :: (List.replicate digits '1' ++ ['x']))

theorem toList_lateLetter (digits : Nat) :
    (lateLetter digits).toList = '.' :: (List.replicate digits '1' ++ ['x']) := String.toList_ofList

theorem length_lateLetter (digits : Nat) : (lateLetter digits).length = digits + 2 := by
  rw [← String.length_toList, toList_lateLetter]
  simp

theorem uncountable_lateLetter (many : Text.counterLimit < digits) :
    Text.Uncountable (lateLetter digits).toList :=
  ⟨[], [], List.replicate digits '1', ['x'], toList_lateLetter digits, .inl rfl,
    List.forall_mem_nil _, fun c found => List.eq_of_mem_replicate found ▸ rfl, by simpa using many⟩

theorem Text.Phase.accepts_letter (phase : Phase) (text : List Char) :
    phase.accepts (text ++ ['x']) = false := by
  induction text generalizing phase with
  | nil => cases phase <;> rfl
  | cons c text ih =>
      rw [List.cons_append, accepts]
      cases phase.step c with
      | none => rfl
      | some next => exact ih next

theorem not_isDecimal_lateLetter (digits : Nat) : ¬ Text.IsDecimal (lateLetter digits).toList := by
  intro decimal
  have accepted := Text.Phase.accepts_decimal decimal
  rw [toList_lateLetter, ← List.cons_append, Text.Phase.accepts_letter] at accepted
  cases accepted

/-- Such a field is no decimal. Where its digits cannot be counted, reading does not come to the
letter, so that it does not refuse the field either. -/
theorem deduce_lateLetter (many : Text.counterLimit < digits) (short : digits + 2 < UInt32.size) :
    (lateLetter digits).length < UInt32.size ∧
      Text.readDecimal (lateLetter digits).toList = .error (.trap .overflow) ∧
      fittingType [lateLetter digits] = .double ∧
      ∃ evidence, Evidence.none.observeAll [lateLetter digits] = .ok evidence ∧
        evidence.deduce.type = .string := by
  have trapped := (uncountable_lateLetter many).traps
  have content : lateLetter digits ≠ "" := by
    intro empty
    have length := length_lateLetter digits
    simp [empty] at length
  have inRange : (lateLetter digits).length < UInt32.size := by rwa [length_lateLetter]
  refine ⟨inRange, trapped, ?fits, _,
    Evidence.observeAll_of_short rfl (by simpa using inRange) (show 1 < UInt32.size by decide),
    ?deduced⟩
  case fits =>
    have accepted : Text.isRefused (lateLetter digits).toList = false := by
      rw [Text.isRefused, trapped]
    have fractional : Text.IsFractional (lateLetter digits).toList :=
      .inl (toList_lateLetter digits ▸ List.mem_cons_self)
    simp [fittingType, content, accepted, fractional]
  case deduced =>
    have summary := Evidence.summarises_foldl [lateLetter digits]
    have flagged := summary.nonNumeric.mpr
      ⟨_, List.mem_singleton_self _, content, not_isDecimal_lateLetter digits⟩
    have counted := summary.nonEmpty.mpr ⟨_, List.mem_singleton_self _, content⟩
    rw [Evidence.deduce, if_neg counted, flagged]
    rfl

end Late

/-- The evidence of a column is exact, as long as reading its fields as decimals counts their digits
without a trap. The column is observed without a trap too, its type is the one that fits the fields,
and an integer type loses none of them. A field with content is flagged exactly if it is no decimal,
which is what reading refuses as malformed. -/
theorem Evidence.deduce_exact [CalendarText] (some : fields ≠ []) (few : fields.length < UInt32.size)
    (short : ∀ field ∈ fields, field.length < UInt32.size)
    (countable : ∀ field ∈ fields, ¬ Text.Uncountable field.toList) :
    (∃ evidence, none.observeAll fields = .ok evidence ∧
      evidence.deduce.type = fittingType fields) ∧
      (∀ type, fittingType fields = .integer type → ∀ field ∈ fields,
        ∃ holds : type.Holds (Text.integerValue field.toList),
          (ColumnType.integer type).parse field.toList =
            .ok (.integer type ⟨Text.integerValue field.toList, holds⟩)) ∧
      ∀ (evidence : Evidence) (text : List Char) (width : Nat),
        evidence.field = .empty → text ≠ [] → text.length < UInt32.size →
          ((text.foldl push evidence).endField width).nonNumeric =
              (evidence.nonNumeric || !decide (Text.IsDecimal text)) ∧
            (¬ Text.Uncountable text → Text.isRefused text = !decide (Text.IsDecimal text)) := by
  refine ⟨⟨_, observeAll_of_short rfl short ?few, ?type⟩, ?parse, ?flag⟩
  case few => simpa [none] using few
  case type => exact (summarises_foldl fields).type_eq some countable
  case parse =>
    intro type fits field found
    exact parse_of_fittingType countable fits found
  case flag =>
    intro evidence text width closed content _
    exact ⟨nonNumeric_endField closed content width, Text.isRefused_eq⟩

/-- The letter comes after more digits than reading counts, but the evidence has seen it. -/
theorem Evidence.deduce_exact_past_counter :
    (lateLetter 2147483648).length < UInt32.size ∧
      Text.readDecimal (lateLetter 2147483648).toList = .error (.trap .overflow) ∧
      fittingType [lateLetter 2147483648] = .double ∧
      ∃ evidence, none.observeAll [lateLetter 2147483648] = .ok evidence ∧
        evidence.deduce.type = .string :=
  deduce_lateLetter (by decide) (by decide)

theorem Evidence.deduce_exact_signed_bytes :
    (["-128", "+7"] ≠ [] ∧ ["-128", "+7"].length < UInt32.size ∧
      (∀ field ∈ ["-128", "+7"], field.length < UInt32.size) ∧
      ∀ field ∈ ["-128", "+7"], ¬ Text.Uncountable field.toList) ∧
      (∃ evidence, none.observeAll ["-128", "+7"] = .ok evidence ∧
        evidence.deduce.type = .integer .int8) ∧
      (∃ holds : IntType.int8.Holds (-128),
        (ColumnType.integer .int8).parse "-128".toList = .ok (.integer .int8 ⟨-128, holds⟩)) ∧
      (("1e".toList.foldl push none).endField 2).nonNumeric = true := by
  have few : ["-128", "+7"].length < UInt32.size := by decide
  have short : ∀ field ∈ ["-128", "+7"], field.length < UInt32.size := by decide
  have countable : ∀ field ∈ ["-128", "+7"], ¬ Text.Uncountable field.toList := by
    intro field found uncountable
    have long := uncountable.lt_length
    have bounded : ∀ field ∈ ["-128", "+7"], field.toList.length ≤ Text.counterLimit := by decide
    exact absurd long (not_lt.mpr (bounded field found))
  have fits : fittingType ["-128", "+7"] = .integer .int8 := by decide
  obtain ⟨⟨evidence, observed, type⟩, parsed, flagged⟩ :=
    deduce_exact (by decide) few short countable
  refine ⟨⟨by decide, few, short, countable⟩, ⟨evidence, observed, type.trans fits⟩,
    parsed .int8 fits "-128" (by decide), ?_⟩
  rw [(flagged none "1e".toList 2 rfl (by decide) (by decide)).1]
  decide

end RowStore
