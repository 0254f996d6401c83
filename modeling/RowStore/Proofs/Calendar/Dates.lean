import Mathlib
import RowStore.Environment
import RowStore.Proofs.Calendar.Civil
import RowStore.Proofs.Text.Digits
import RowStore.Proofs.Value.Inverse

/-! Dates on every way out and back.

A date is written as a text, counted as a number of days, taken as the first instant of its day, and
stored in eight bytes. Each way leads back to the date, and the numbers that lead to no date are those of
the days that no year of dates has.
-/

namespace RowStore

namespace Text

section Years

variable {year : Int} {rest : List Char}

theorem takeYear?_sign {sign : Char} (signed : sign = '-' ∨ sign = '+') (number : Nat) :
    takeYear? (sign :: (zeroPadded 4 number ++ '-' :: rest)) =
      some (if sign = '-' then -(number : Int) else number, '-' :: rest) := by
  have read : takeNumber? 1 (zeroPadded 4 number ++ '-' :: rest).length
      (zeroPadded 4 number ++ '-' :: rest) = some (number, '-' :: rest) := by
    rw [takeNumber?_digits (isDigits_zeroPadded 4 number)
      (List.length_pos_of_ne_nil (zeroPadded_ne_nil 4 number)) (by simp) (.inr ⟨'-', rest, rfl, rfl⟩),
      digitsValue_zeroPadded]
  rcases signed with rfl | rfl <;> rw [takeYear?, read] <;> rfl

theorem takeYear?_digits {digits : List Char} (read : IsDigits digits) (some : digits ≠ []) :
    takeYear? (digits ++ rest) =
      (takeNumber? 1 4 (digits ++ rest)).map fun (year, after) => ((year : Int), after) := by
  obtain ⟨c, others, rfl⟩ := List.exists_cons_of_ne_nil some
  have digit : isDigit c = true := read c List.mem_cons_self
  rw [List.cons_append]
  unfold takeYear?
  split
  · rename_i same
    cases same
    cases digit
  · rename_i same
    cases same
    cases digit
  · rfl

/-- Any year is read back from its text, in front of a hyphen. -/
theorem takeYear?_yearText (year : Int) (rest : List Char) :
    takeYear? (trimLeft (yearText year ++ '-' :: rest)) = some (year, '-' :: rest) := by
  rw [yearText]
  split_ifs with plain negative
  · rw [trimLeft_digits (isDigits_zeroPadded _ _) (zeroPadded_ne_nil _ _),
      takeYear?_digits (isDigits_zeroPadded _ _) (zeroPadded_ne_nil _ _),
      takeNumber?_zeroPadded (by decide) (by omega) (by decide)]
    simp only [Option.map_some, Int.toNat_of_nonneg plain.1]
  · rw [List.cons_append, trimLeft_cons (by decide), takeYear?_sign (.inl rfl), if_pos rfl]
    congr 2
    omega
  · rw [List.cons_append, trimLeft_cons (by decide), takeYear?_sign (.inr rfl), if_neg (by decide)]
    congr 2
    omega

theorem isBlank_of_mem_zeroPadded {width number : Nat} {c : Char}
    (mem : c ∈ zeroPadded width number) : isBlank c = false :=
  isBlank_of_isDigit (isDigits_zeroPadded width number c mem)

theorem isBlank_of_mem_marked {mark : Char} (shown : isBlank mark = false) {width number : Nat}
    {c : Char} (mem : c ∈ mark :: zeroPadded width number) : isBlank c = false := by
  rcases List.mem_cons.mp mem with rfl | mem
  · exact shown
  · exact isBlank_of_mem_zeroPadded mem

theorem isBlank_of_mem_yearText {c : Char} (mem : c ∈ yearText year) : isBlank c = false := by
  rw [yearText] at mem
  split_ifs at mem
  · exact isBlank_of_mem_zeroPadded mem
  · exact isBlank_of_mem_marked (by decide) mem
  · exact isBlank_of_mem_marked (by decide) mem

end Years

/-- A month or a day is read back from its two digits. -/
theorem takeNumber?_pair {number : Nat} (small : number < 100) (rest : List Char) :
    takeNumber? 1 2 (trimLeft (zeroPadded 2 number ++ rest)) = some (number, rest) := by
  rw [trimLeft_digits (isDigits_zeroPadded _ _) (zeroPadded_ne_nil _ _),
    takeNumber?_zeroPadded (by decide) small (by decide)]

end Text

namespace Date

theorem textChars_eq (date : Date) : date.textChars = Text.yearText date.civil.1 ++
    '-' :: (Text.zeroPadded 2 date.civil.2.1 ++ '-' :: Text.zeroPadded 2 date.civil.2.2) := by
  rw [textChars]
  simp only [List.append_assoc, List.cons_append]

theorem isBlank_of_mem_textChars {date : Date} {c : Char} (mem : c ∈ date.textChars) :
    Text.isBlank c = false := by
  rw [textChars_eq, List.mem_append, List.mem_cons, List.mem_append, List.mem_cons] at mem
  rcases mem with year | rfl | month | rfl | day
  · exact Text.isBlank_of_mem_yearText year
  · rfl
  · exact Text.isBlank_of_mem_zeroPadded month
  · rfl
  · exact Text.isBlank_of_mem_zeroPadded day

theorem readDate?_textChars (date : Date) : Text.readDate? date.textChars = some date := by
  obtain ⟨year, month, day, shown, valid, -⟩ := date.civil_cases
  have made := date.ofCivil?_civil
  have last := valid.last.1
  have monthLast := valid.monthLast
  rw [textChars_eq]
  rw [shown] at made ⊢
  have final := Text.takeNumber?_pair (show day < 100 by omega) []
  rw [List.append_nil] at final
  simp only [Text.readDate?, Text.takeYear?_yearText, Text.takeChar?_cons,
    Text.takeNumber?_pair (show month < 100 by omega), final, Option.bind_eq_bind, Option.bind_some,
    List.isEmpty_nil, if_true]
  exact made

theorem parse_text (date : Date) : ColumnType.date.parse date.text.toList = .ok (.date date) := by
  have read : CalendarText.readDate? date.textChars = some date := date.readDate?_textChars
  rw [text, String.toList_ofList, ColumnType.parse, Text.trim_eq_self fun _ => isBlank_of_mem_textChars,
    read]

theorem int64_holds_day (date : Date) : IntType.int64.Holds date.day := by
  have range := date.inRange
  simp only [IntType.Holds, IntType.int64, IntType.least, IntType.greatest, IntWidth.size, UInt64.size,
    if_true]
  omega

def number (date : Date) : IntType.int64.Elem := ⟨date.day, date.int64_holds_day⟩

theorem convert_integer [Host] (date : Date) :
    (Value.date date).convert (.integer .int64) = .ok (.integer .int64 date.number) := by
  have converted : (Value.date date).convert (.integer .int64) =
      ((Value.date date).toInteger .int64).map (.integer .int64) := rfl
  rw [converted, Value.toInteger]
  simp only [Value.wideInt?, IntType.ofInt?, dif_pos date.int64_holds_day]
  rfl

theorem convert_number [Host] (date : Date) :
    (Value.integer .int64 date.number).convert .date = .ok (.date date) := by
  have converted : (Value.integer .int64 date.number).convert .date =
      ((Value.integer .int64 date.number).toCount .date >>= ColumnType.dateOfDay).map .date := rfl
  have counted : (Value.integer .int64 date.number).toCount .date = .ok date.day :=
    if_pos date.int64_holds_day
  have made : (.ok date.day >>= ColumnType.dateOfDay) = .ok date := ColumnType.dateOfDay_day date
  rw [converted, counted, made]
  rfl

/-- The first instant of a date. -/
def midnight (date : Date) : Instant :=
  ⟨date.day * 86400, 0, by rw [Int.mul_ediv_cancel _ (by decide)]; exact date.inRange, .inl (by decide)⟩

theorem date_midnight (date : Date) : date.midnight.date = date := by
  obtain ⟨day, range⟩ := date
  simp only [midnight, Instant.date, Int.mul_ediv_cancel _ (show (86400 : Int) ≠ 0 by decide)]

theorem convert_instant [Host] (date : Date) :
    (Value.date date).convert .instant = .ok (.instant date.midnight) := by
  have converted : (Value.date date).convert .instant =
      (ColumnType.instantOfParts (date.day * 86400) 0).map .instant := rfl
  have made := ColumnType.instantOfParts_parts date.midnight
  rw [converted]
  exact congrArg (Except.map Value.instant) made

theorem convert_midnight [Host] (date : Date) :
    (Value.instant date.midnight).convert .date = .ok (.date date) :=
  congrArg (Except.ok ∘ Value.date) date.date_midnight

theorem exists_stored (date : Date) (order : ByteOrder) : ∃ bytes,
    ColumnType.date.encode order (.date date) = .ok bytes ∧
      ColumnType.date.decode order bytes = .ok (.date date) ∧
      ColumnType.date.encode order (.instant date.midnight) = .ok bytes := by
  have written : ColumnType.date.encode order (.date date) = .ok (order.writeInteger .int64 date.day) :=
    rfl
  have first : ColumnType.date.encode order (.instant date.midnight) =
      ColumnType.date.encode order (.date date.midnight.date) := rfl
  have typed : (Value.date date).type = .date := rfl
  refine ⟨_, written, ColumnType.decode_renewed typed written, ?_⟩
  rw [first, date.date_midnight, written]

theorem dateOfDay_eq_error_iff {number : Int} {reason : Error} :
    ColumnType.dateOfDay number = .error reason ↔
      reason = .invalidTemporal .date (toString number) ∧ ¬ ∃ date : Date, date.day = number := by
  rw [ColumnType.dateOfDay, ofDay?]
  split_ifs with range
  · refine iff_of_false (by simp) fun both => both.2 ⟨⟨number, range⟩, rfl⟩
  · have none : ¬ ∃ date : Date, date.day = number := by
      rintro ⟨date, rfl⟩
      exact range date.inRange
    rw [and_iff_left none]
    simp [eq_comm]

/-- The numbers of days count the calendar from the first day of 1970. Every date is a day of the
calendar in the years from -262143 to 262142, and comes back from its text, from its number of days, from
the first instant of its day, and from its stored bytes, which are those that the instant is stored in
too. An integer of 64 bits is refused as a number of days exactly if it is that of no day in these
years. -/
theorem conversions_agree [Host] :
    (Civil.dayNumber 1970 1 1 = 0 ∧
      ∀ number, Civil.ofDayNumber (number + 1) = Civil.next (Civil.ofDayNumber number)) ∧
    (∀ date : Date,
      (∃ year month day, date.civil = (year, month, day) ∧ Civil.IsDay year month day ∧
        -262143 ≤ year ∧ year ≤ 262142 ∧ Civil.dayNumber year month day = date.day) ∧
      ColumnType.date.parse (Value.date date).text.toList = .ok (.date date) ∧
      (∃ number, number.val = date.day ∧
        (Value.date date).convert (.integer .int64) = .ok (.integer .int64 number) ∧
        (Value.integer .int64 number).convert .date = .ok (.date date)) ∧
      ∃ instant, (Value.date date).convert .instant = .ok (.instant instant) ∧
        (Value.instant instant).convert .date = .ok (.date date) ∧
        ∀ order, ∃ bytes, ColumnType.date.encode order (.date date) = .ok bytes ∧
          ColumnType.date.decode order bytes = .ok (.date date) ∧
          ColumnType.date.encode order (.instant instant) = .ok bytes) ∧
    ∀ (number : IntType.int64.Elem) (reason : Error),
      ColumnType.dateOfDay number.val = .error reason ↔
        reason = .invalidTemporal .date (toString number.val) ∧
        ¬ ∃ year month day, Civil.IsDay year month day ∧ -262143 ≤ year ∧ year ≤ 262142 ∧
          Civil.dayNumber year month day = number.val := by
  refine ⟨⟨by decide, Civil.ofDayNumber_succ⟩, ?_, ?_⟩
  · intro date
    obtain ⟨year, month, day, shown, valid, same, first, last⟩ := date.civil_cases
    exact ⟨⟨year, month, day, shown, valid, first, last, same⟩, date.parse_text,
      ⟨date.number, rfl, date.convert_integer, date.convert_number⟩,
      date.midnight, date.convert_instant, date.convert_midnight, date.exists_stored⟩
  · intro number reason
    rw [dateOfDay_eq_error_iff, exists_day_iff]

example : (Date.mk (-96465292) (by decide)).text = "-262143-01-01" := by decide +kernel

end Date

end RowStore
