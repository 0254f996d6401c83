import Mathlib
import RowStore.Proofs.Calendar.Dates

/-! Instants read back from their texts.

The text of an instant is made of fields of fixed width, a fraction of a second and the letter of the
universal scale. It is read back whenever the year takes four digits; the grammar of instants has no sign
for other years, which an offset can lead to on the two days beside the years from 0 to 9999.
-/

namespace RowStore

namespace Text

section Fields

/-- Digits after a point count from the first decimal place. -/
theorem takeNanos?_zeroPadded {width number : Nat} (positive : 0 < width) (short : width ≤ 9)
    (small : number < 10 ^ width) : takeNanos? (zeroPadded width number ++ ['Z']) =
      some (number * 10 ^ (9 - width), ['Z']) := by
  have length := length_zeroPadded positive small
  have read : takeNumber? 1 9 (zeroPadded width number ++ ['Z']) =
      some (digitsValue (zeroPadded width number), ['Z']) :=
    takeNumber?_digits (isDigits_zeroPadded width number) (by rwa [length]) (by rwa [length])
      (.inr ⟨'Z', [], rfl, rfl⟩)
  rw [takeNanos?, read, digitsValue_zeroPadded]
  simp [length, isDigit]

theorem takeFraction?_fractionText {nanos : Nat} (small : nanos < 1000000000) :
    takeFraction? (fractionText nanos ++ ['Z']) = some (nanos, ['Z']) := by
  have point {width number : Nat} (positive : 0 < width) (short : width ≤ 9)
      (fits : number < 10 ^ width) (exact : number * 10 ^ (9 - width) = nanos) :
      takeFraction? ('.' :: zeroPadded width number ++ ['Z']) = some (nanos, ['Z']) := by
    rw [List.cons_append, takeFraction?, takeNanos?_zeroPadded positive short fits, exact]
  rw [fractionText]
  split_ifs with none milli micro
  · rw [none]
    rfl
  · exact point (by decide) (by decide) (by omega) (by omega)
  · exact point (by decide) (by decide) (by omega) (by omega)
  · exact point (by decide) (by decide) (by omega) (by omega)

theorem takeNumber?_two {number : Nat} (small : number < 100) (rest : List Char) :
    takeNumber? 2 2 (zeroPadded 2 number ++ rest) = some (number, rest) :=
  takeNumber?_zeroPadded (by decide) small (by decide) rest

end Fields

/-- What follows a part that was found is read with it. -/
theorem read_step {α β : Type} {first : Option α} {found : α} (same : first = some found)
    (next : α → Option β) : first >>= next = next found := by
  rw [same]
  rfl

/-- The text of a time of day on the universal scale. -/
def clockText (hour minute second nanos : Nat) : List Char :=
  'T' :: (zeroPadded 2 hour ++ ':' :: (zeroPadded 2 minute ++ ':' :: (zeroPadded 2 second ++
    (fractionText nanos ++ ['Z']))))

/-- The text of a day in a year of four digits. -/
def dayText (year month day : Nat) : List Char :=
  zeroPadded 4 year ++ '-' :: (zeroPadded 2 month ++ '-' :: zeroPadded 2 day)

theorem isBlank_of_mem_fractionText {nanos : Nat} {c : Char} (mem : c ∈ fractionText nanos) :
    isBlank c = false := by
  rw [fractionText] at mem
  split_ifs at mem
  · cases mem
  · exact isBlank_of_mem_marked (by decide) mem
  · exact isBlank_of_mem_marked (by decide) mem
  · exact isBlank_of_mem_marked (by decide) mem

theorem isBlank_of_mem_clockText {hour minute second nanos : Nat} {c : Char}
    (mem : c ∈ clockText hour minute second nanos) : isBlank c = false := by
  simp only [clockText, List.mem_cons, List.mem_append, List.not_mem_nil, or_false] at mem
  rcases mem with rfl | hour | rfl | minute | rfl | second | fraction | rfl
  · rfl
  · exact isBlank_of_mem_zeroPadded hour
  · rfl
  · exact isBlank_of_mem_zeroPadded minute
  · rfl
  · exact isBlank_of_mem_zeroPadded second
  · exact isBlank_of_mem_fractionText fraction
  · rfl

theorem readInstant?_fields {year month day hour minute second nanos : Nat} (years : year < 10000)
    (months : month < 100) (days : day < 100) (hours : hour ≤ 23) (minutes : minute ≤ 59)
    (seconds : second ≤ 60) (small : nanos < 1000000000) :
    readInstant? (dayText year month day ++ clockText hour minute second nanos) = (do
      let date ← Date.ofCivil? year month day
      let ofDay : Int := hour * 3600 + minute * 60 + (if second = 60 then 59 else second)
      Instant.ofParts? (date.day * 86400 + ofDay)
        (if second = 60 then nanos + 1000000000 else nanos)) := by
  have four (rest : List Char) : takeNumber? 4 4 (zeroPadded 4 year ++ rest) = some (year, rest) :=
    takeNumber?_zeroPadded (by decide) years le_rfl rest
  have separator (rest : List Char) : takeSeparator? ('T' :: rest) = some rest := rfl
  have offset : takeOffset? ['Z'] = some (0, []) := rfl
  have inside : ([] : List Char).isEmpty ∧ hour ≤ 23 ∧ minute ≤ 59 ∧ second ≤ 60 :=
    ⟨rfl, hours, minutes, seconds⟩
  simp only [dayText, clockText, List.append_assoc, List.cons_append]
  refine (read_step (four _) _).trans ((read_step (takeChar?_cons _ _) _).trans ?_)
  refine (read_step (takeNumber?_two months _) _).trans ((read_step (takeChar?_cons _ _) _).trans ?_)
  refine (read_step (takeNumber?_two days _) _).trans ((read_step (separator _) _).trans ?_)
  refine (read_step (takeNumber?_two (by omega) _) _).trans
    ((read_step (takeChar?_cons _ _) _).trans ?_)
  refine (read_step (takeNumber?_two (by omega) _) _).trans
    ((read_step (takeChar?_cons _ _) _).trans ?_)
  refine (read_step (takeNumber?_two (by omega) _) _).trans ?_
  refine (read_step (takeFraction?_fractionText small) _).trans ((read_step offset _).trans ?_)
  dsimp only
  simp only [if_pos inside, sub_zero]

end Text

namespace Date

variable {date : Date}

/-- The year of a date is written in four digits, without a sign. -/
def FourDigits (date : Date) : Prop := 0 ≤ date.civil.1 ∧ date.civil.1 ≤ 9999

instance (date : Date) : Decidable date.FourDigits := inferInstanceAs (Decidable (_ ∧ _))

theorem textChars_of_fourDigits (years : date.FourDigits) :
    date.textChars = Text.dayText date.civil.1.toNat date.civil.2.1 date.civil.2.2 := by
  have unsigned : Text.yearText date.civil.1 = Text.zeroPadded 4 date.civil.1.toNat := if_pos years
  rw [date.textChars_eq, unsigned, Text.dayText]

theorem fourDigits_iff : date.FourDigits ↔ -719528 ≤ date.day ∧ date.day ≤ 2932896 := by
  obtain ⟨year, month, day, shown, valid, same, -⟩ := date.civil_cases
  have first : Civil.dayNumber 0 1 1 = -719528 := by decide
  have last : Civil.dayNumber 9999 12 31 = 2932896 := by decide
  rw [FourDigits, shown, valid.year_iff, first, last, same]

/-- Beside these years are the last day of the year before and the first day of the year after. -/
theorem civil_beside {middle : Date} (years : middle.FourDigits)
    (before : middle.day - 1 ≤ date.day) (after : date.day ≤ middle.day + 1) :
    date.FourDigits ∨ date.civil = (-1, 12, 31) ∨ date.civil = (10000, 1, 1) := by
  rw [fourDigits_iff] at years ⊢
  have cases : (-719528 ≤ date.day ∧ date.day ≤ 2932896) ∨ date.day = -719529 ∨ date.day = 2932897 := by
    omega
  rcases cases with inside | first | last
  · exact .inl inside
  · rw [civil, first]
    exact .inr (.inl (by decide))
  · rw [civil, last]
    exact .inr (.inr (by decide))

end Date

namespace Instant

/-- The second of its day that an instant is in, on the universal scale. -/
def ofDay (instant : Instant) : Nat := (instant.seconds % 86400).toNat

theorem seconds_eq (instant : Instant) :
    instant.seconds = instant.date.day * 86400 + instant.ofDay ∧ instant.ofDay < 86400 := by
  have split := Int.emod_add_ediv_mul instant.seconds 86400
  have start := Int.emod_nonneg instant.seconds (show (86400 : Int) ≠ 0 by decide)
  have stop := Int.emod_lt_of_pos instant.seconds (show (0 : Int) < 86400 by decide)
  simp only [ofDay, date]
  omega

theorem textChars_eq (instant : Instant) : instant.textChars = instant.date.textChars ++
    Text.clockText (instant.ofDay / 3600) (instant.ofDay / 60 % 60)
      (instant.ofDay % 60 + if 1000000000 ≤ instant.nanos then 1 else 0)
      (if 1000000000 ≤ instant.nanos then instant.nanos - 1000000000 else instant.nanos) := by
  rw [textChars, Text.clockText]
  simp only [List.append_assoc, List.cons_append]
  rfl

theorem nanos_cases (instant : Instant) :
    instant.nanos < 1000000000 ∨ 1000000000 ≤ instant.nanos ∧ instant.nanos < 2000000000 ∧
      instant.ofDay % 60 = 59 := by
  obtain ⟨split, -⟩ := instant.seconds_eq
  have fraction := instant.fraction
  omega

theorem readInstant?_textChars {instant : Instant} (years : instant.date.FourDigits) :
    Text.readInstant? instant.textChars = some instant := by
  obtain ⟨split, short⟩ := instant.seconds_eq
  have made := instant.date.ofCivil?_civil
  rw [textChars_eq, Date.textChars_of_fourDigits years]
  obtain ⟨year, month, day, shown, valid, -⟩ := instant.date.civil_cases
  have days := valid.last.1
  have months := valid.monthLast
  obtain ⟨first, last⟩ := years
  rw [shown] at first last made ⊢
  dsimp only at first last made ⊢
  have whole : ((year.toNat : Nat) : Int) = year := Int.toNat_of_nonneg first
  have again := instant.ofParts?_parts
  -- A leap second is written as second 60 with the rest of its nanoseconds, and read as second 59.
  rcases instant.nanos_cases with plain | ⟨leap, small, minute⟩
  · rw [if_neg (not_le.mpr plain), if_neg (not_le.mpr plain), Nat.add_zero,
      Text.readInstant?_fields (by omega) (by omega) (by omega) (by omega) (by omega) (by omega) plain,
      whole, made]
    have second : instant.ofDay % 60 ≠ 60 := by omega
    simp only [Option.bind_eq_bind, Option.bind_some, if_neg second]
    rw [← again]
    congr 1
    omega
  · rw [if_pos leap, if_pos leap, minute,
      Text.readInstant?_fields (by omega) (by omega) (by omega) (by omega) (by omega) (by omega)
        (by omega), whole, made]
    simp only [Option.bind_eq_bind, Option.bind_some, if_true]
    rw [← again]
    congr 1 <;> omega

theorem readInstant?_eq_none {instant : Instant} (outside : ¬ instant.date.FourDigits) :
    Text.readInstant? instant.textChars = none := by
  -- The year begins with a sign, where the grammar of instants has a digit.
  have signed (sign : Char) (other : Text.isDigit sign = false) (rest : List Char) :
      Text.readInstant? (sign :: rest) = none := by
    rw [Text.readInstant?, Text.takeNumber?_eq_none other (by decide)]
    rfl
  rw [Date.FourDigits] at outside
  rw [textChars_eq, Date.textChars_eq, Text.yearText, if_neg outside, List.cons_append,
    List.cons_append]
  apply signed
  split_ifs <;> decide

theorem isBlank_of_mem_textChars {instant : Instant} {c : Char} (mem : c ∈ instant.textChars) :
    Text.isBlank c = false := by
  rw [textChars_eq, List.mem_append] at mem
  rcases mem with day | clock
  · exact Date.isBlank_of_mem_textChars day
  · exact Text.isBlank_of_mem_clockText clock

theorem parse_text (instant : Instant) :
    ColumnType.instant.parse (Value.instant instant).text.toList =
      if instant.date.FourDigits then .ok (.instant instant)
      else .error (.invalidTemporal .instant (Value.instant instant).text) := by
  have written : (Value.instant instant).text.toList = instant.textChars := String.toList_ofList
  rw [written, ColumnType.parse, Text.trim_eq_self fun _ => isBlank_of_mem_textChars]
  split_ifs with years
  · have read : CalendarText.readInstant? instant.textChars = some instant :=
      readInstant?_textChars years
    rw [read]
  · have refused : CalendarText.readInstant? instant.textChars = none := readInstant?_eq_none years
    rw [refused]
    rfl

end Instant

namespace Text

theorem takeOffset?_bounds {text rest : List Char} {offset : Int}
    (read : takeOffset? text = some (offset, rest)) : -86400 < offset ∧ offset < 86400 := by
  unfold takeOffset? at read
  split at read
  · cases read
    decide
  · cases read
    decide
  · obtain ⟨⟨west, text⟩, -, read⟩ := Option.bind_eq_some_iff.mp read
    obtain ⟨⟨hours, text⟩, -, read⟩ := Option.bind_eq_some_iff.mp read
    obtain ⟨text, -, read⟩ := Option.bind_eq_some_iff.mp read
    obtain ⟨⟨minutes, text⟩, -, read⟩ := Option.bind_eq_some_iff.mp read
    dsimp only at read
    split_ifs at read with inside
    · cases read
      omega
    · cases read
      omega

/-- What an accepted text says: a date, a time of day and an offset. -/
theorem exists_fields_of_readInstant? {text : List Char} {instant : Instant}
    (read : readInstant? text = some instant) :
    ∃ (year month day hour minute second nanos : Nat) (offset : Int) (date : Date),
      year < 10000 ∧ Date.ofCivil? year month day = some date ∧
        hour ≤ 23 ∧ minute ≤ 59 ∧ second ≤ 60 ∧ -86400 < offset ∧ offset < 86400 ∧
        Instant.ofParts?
          (date.day * 86400 + (hour * 3600 + minute * 60 + (if second = 60 then 59 else second) : Nat)
            - offset)
          (if second = 60 then nanos + 1000000000 else nanos) = some instant := by
  obtain ⟨⟨year, text⟩, years, read⟩ := Option.bind_eq_some_iff.mp read
  obtain ⟨text, -, read⟩ := Option.bind_eq_some_iff.mp read
  obtain ⟨⟨month, text⟩, -, read⟩ := Option.bind_eq_some_iff.mp read
  obtain ⟨text, -, read⟩ := Option.bind_eq_some_iff.mp read
  obtain ⟨⟨day, text⟩, -, read⟩ := Option.bind_eq_some_iff.mp read
  obtain ⟨text, -, read⟩ := Option.bind_eq_some_iff.mp read
  obtain ⟨⟨hour, text⟩, -, read⟩ := Option.bind_eq_some_iff.mp read
  obtain ⟨text, -, read⟩ := Option.bind_eq_some_iff.mp read
  obtain ⟨⟨minute, text⟩, -, read⟩ := Option.bind_eq_some_iff.mp read
  obtain ⟨text, -, read⟩ := Option.bind_eq_some_iff.mp read
  obtain ⟨⟨second, text⟩, -, read⟩ := Option.bind_eq_some_iff.mp read
  obtain ⟨⟨nanos, text⟩, -, read⟩ := Option.bind_eq_some_iff.mp read
  obtain ⟨⟨offset, text⟩, shift, read⟩ := Option.bind_eq_some_iff.mp read
  obtain ⟨date, made, read⟩ := Option.bind_eq_some_iff.mp read
  obtain ⟨west, east⟩ := takeOffset?_bounds shift
  obtain ⟨⟨-, hours, minutes, seconds⟩, read⟩ := Option.ite_none_right_eq_some.mp read
  refine ⟨year, month, day, hour, minute, second, nanos, offset, date, lt_of_takeNumber? years, made,
    hours, minutes, seconds, west, east, ?_⟩
  rw [← read]
  push_cast
  rfl

theorem exists_date_of_readInstant? {text : List Char} {instant : Instant}
    (read : readInstant? text = some instant) : ∃ date : Date, date.FourDigits ∧
      date.day - 1 ≤ instant.date.day ∧ instant.date.day ≤ date.day + 1 := by
  obtain ⟨year, month, day, hour, minute, second, nanos, offset, date, years, made, hours, minutes,
    seconds, west, east, parts⟩ := exists_fields_of_readInstant? read
  have sum := (Instant.parts_of_ofParts? parts).1
  have ofDay : hour * 3600 + minute * 60 + (if second = 60 then 59 else second) < 86400 := by
    split_ifs <;> omega
  generalize hour * 3600 + minute * 60 + (if second = 60 then 59 else second) = passed at sum ofDay
  refine ⟨date, ?_, ?_⟩
  · rw [Date.FourDigits, Date.civil_of_ofCivil? made]
    exact ⟨by omega, by omega⟩
  · simp only [Instant.date]
    omega

end Text

namespace Instant

/-- What the text of an instant comes to when it was read from an accepted text. In a year of four digits
the instant is read back. An offset can lead to the day before or the day after these years, whose years
take a sign, and then the text of the instant is refused. -/
theorem parse_text_of_parse (text : List Char) (value : Value)
    (read : ColumnType.instant.parse text = .ok value) :
    ∃ instant, value = .instant instant ∧
      (instant.date.FourDigits →
        ColumnType.instant.parse value.text.toList = .ok value) ∧
      (¬ instant.date.FourDigits →
        (instant.date.civil = (-1, 12, 31) ∨ instant.date.civil = (10000, 1, 1)) ∧
        ColumnType.instant.parse value.text.toList =
          .error (.invalidTemporal .instant value.text)) := by
  rw [ColumnType.parse] at read
  split at read
  · rename_i instant found
    cases read
    obtain ⟨date, years, before, after⟩ := Text.exists_date_of_readInstant? found
    refine ⟨instant, rfl, fun inside => ?_, fun outside => ⟨?_, ?_⟩⟩
    · rw [parse_text, if_pos inside]
    · exact (Date.civil_beside years before after).resolve_left outside
    · rw [parse_text, if_neg outside]
  · cases read

/-- A leap second with a fraction, five hours behind. -/
theorem parse_text_of_parse_leap_second :
    ∃ value, ColumnType.instant.parse "2016-12-31T18:59:60.25-05:00".toList = .ok value ∧
      value.text = "2016-12-31T23:59:60.250Z" ∧
      ColumnType.instant.parse "2016-12-31T23:59:60.250Z".toList = .ok value := by
  let instant : Instant := ⟨1483228799, 1250000000, by decide, by decide⟩
  have read : ColumnType.instant.parse "2016-12-31T18:59:60.25-05:00".toList =
      .ok (.instant instant) := by
    decide +kernel
  have written : (Value.instant instant).text = "2016-12-31T23:59:60.250Z" := by decide +kernel
  obtain ⟨_, ⟨⟩, back, -⟩ := parse_text_of_parse _ _ read
  rw [written] at back
  exact ⟨_, read, written, back (by decide +kernel)⟩

/-- A minute before the year 0. -/
theorem parse_text_of_year_before_zero :
    ∃ value, ColumnType.instant.parse "0000-01-01T00:00:00+00:01".toList = .ok value ∧
      value.text = "-0001-12-31T23:59:00Z" ∧
      ColumnType.instant.parse "-0001-12-31T23:59:00Z".toList =
        .error (.invalidTemporal .instant "-0001-12-31T23:59:00Z") :=
  ⟨.instant ⟨-62167219260, 0, by decide, by decide⟩, by decide +kernel, by decide +kernel,
    by decide +kernel⟩

end Instant

end RowStore
