import Mathlib
import RowStore.Calendar.Date

/-! Day numbers count the days of the calendar.

The number of a day is the days of its era of 400 years, of the years of the era that begin in March,
and of the months of its year, added up. Each of the three parts is found again from the sum. That the
numbers are those of the calendar follows from the day after a day, which has the next number.
-/

namespace RowStore.Civil

theorem isLeap_iff {year : Int} :
    isLeap year = true ↔ year % 4 = 0 ∧ (year % 100 ≠ 0 ∨ year % 400 = 0) := by
  simp [isLeap]

/-- A day of the calendar: there are twelve months, and each has its days. -/
structure IsDay (year : Int) (month day : Nat) : Prop where
  monthFirst : 1 ≤ month
  monthLast : month ≤ 12
  dayFirst : 1 ≤ day
  dayLast : day ≤ daysInMonth year month

section Years

variable {year day century rest sum : Int}

/-- Days from the start of an era to a year of it. -/
def daysBefore (year : Int) : Int := 365 * year + year / 4 - year / 100

/-- The year of its era that a day is in. -/
def yearOfEra (day : Int) : Int := (day - day / 1460 + day / 36524 - day / 146096) / 365

/-- Centuries have 36524 days, and the last one of an era has one more. -/
theorem century_of_day (first : 0 ≤ century) (last : century ≤ 3) (start : 0 ≤ rest)
    (stop : rest < 36524 ∨ rest = 36524 ∧ century = 3) (split : sum = 36524 * century + rest) :
    sum / 36524 - sum / 146096 = century := by
  omega

/-- How often 1460 days have passed when `rest` days of four years have. -/
theorem fours_of_day {fours shift : Int} (start : 0 ≤ rest) (stop : rest ≤ 1460) (left : 0 ≤ shift)
    (right : shift ≤ 96) (split : sum = 1460 * fours + (rest + shift)) :
    sum / 1460 = fours ∧ rest + shift < 1460 ∨ sum / 1460 = fours + 1 ∧ 1460 ≤ rest + shift := by
  omega

theorem yearOfEra_parts {fours single : Int} (first : 0 ≤ century) (last : century ≤ 3)
    (firstFour : 0 ≤ fours) (lastFour : fours ≤ 24) (firstYear : 0 ≤ single) (lastYear : single ≤ 3)
    (start : 0 ≤ day) (stop : day ≤ 364 ∨ day = 365 ∧ single = 3 ∧ (fours ≤ 23 ∨ century = 3)) :
    yearOfEra (36524 * century + (1461 * fours + 365 * single + day)) =
      100 * century + 4 * fours + single := by
  generalize split : 36524 * century + (1461 * fours + 365 * single + day) = sum
  -- One day is taken off for every 1460, so one for each four years that have passed, and one more
  -- already towards the end of the next four: in their last year, and no later than on their leap day.
  have centuries : sum / 36524 - sum / 146096 = century :=
    century_of_day first last (by omega) (by omega) split.symm
  have passed : sum / 1460 = 25 * century + fours ∧ 365 * single + day + (24 * century + fours) < 1460 ∨
      sum / 1460 = 25 * century + fours + 1 ∧ 1460 ≤ 365 * single + day + (24 * century + fours) :=
    fours_of_day (by omega) (by omega) (by omega) (by omega) (by omega)
  rw [yearOfEra, show sum - sum / 1460 + sum / 36524 - sum / 146096 =
    sum - sum / 1460 + century by omega]
  rcases passed with ⟨before, short⟩ | ⟨after, long⟩
  · have days : sum - sum / 1460 + century = 365 * (100 * century + 4 * fours + single) + day := by
      omega
    rw [days]
    omega
  · have days : sum - sum / 1460 + century =
        365 * (100 * century + 4 * fours + single) + (day - 1) := by
      omega
    rw [days]
    omega

theorem yearOfEra_daysBefore (first : 0 ≤ year) (last : year < 400) (start : 0 ≤ day)
    (stop : day ≤ 364 ∨ day = 365 ∧ isLeap (year + 1) = true) :
    yearOfEra (daysBefore year + day) = year := by
  rw [isLeap_iff] at stop
  have parts : daysBefore year + day =
      36524 * (year / 100) + (1461 * (year % 100 / 4) + 365 * (year % 4) + day) := by
    rw [daysBefore]
    omega
  rw [parts, yearOfEra_parts (by omega) (by omega) (by omega) (by omega) (by omega) (by omega) start
    (by omega)]
  omega

theorem daysBefore_bounds (first : 0 ≤ year) (last : year < 400) (start : 0 ≤ day)
    (stop : day ≤ 364 ∨ day = 365 ∧ isLeap (year + 1) = true) :
    0 ≤ daysBefore year + day ∧ daysBefore year + day < 146097 := by
  rw [isLeap_iff] at stop
  rw [daysBefore]
  omega

end Years

section Months

variable {year : Int} {month day : Nat}

/-- The year, counted from March, that a month is in. -/
def marchYear (year : Int) (month : Nat) : Int := if month ≤ 2 then year - 1 else year

/-- The day of the year, counted from the first day of March. -/
def dayOfYear (month day : Nat) : Int :=
  let monthOfYear : Int := if month ≤ 2 then month + 9 else month - 3
  (153 * monthOfYear + 2) / 5 + day - 1

/-- The day of the calendar at a place of a year that begins in March. -/
def atPlace (year dayOfYear : Int) : Int × Nat × Nat :=
  let monthOfYear := (5 * dayOfYear + 2) / 153
  let day := dayOfYear - (153 * monthOfYear + 2) / 5 + 1
  let month := if monthOfYear < 10 then monthOfYear + 3 else monthOfYear - 9
  (if month ≤ 2 then year + 1 else year, month.toNat, day.toNat)

theorem IsDay.last (valid : IsDay year month day) :
    day ≤ 31 ∧ (month = 4 ∨ month = 6 ∨ month = 9 ∨ month = 11 → day ≤ 30) ∧
      (month = 2 → day ≤ 28 ∨ day = 29 ∧ isLeap year = true) := by
  have last := valid.dayLast
  rw [daysInMonth] at last
  split_ifs at last with february leap short
  · exact ⟨by omega, by omega, fun _ => (Nat.lt_or_eq_of_le last).imp Nat.le_of_lt_succ (⟨·, leap⟩)⟩
  · exact ⟨by omega, by omega, fun _ => .inl last⟩
  · exact ⟨by omega, fun _ => last, by omega⟩
  · exact ⟨last, fun other => absurd other short, fun other => absurd other february⟩

theorem IsDay.dayOfYear_bounds (valid : IsDay year month day) :
    0 ≤ dayOfYear month day ∧ (dayOfYear month day ≤ 364 ∨
      dayOfYear month day = 365 ∧ isLeap (marchYear year month + 1) = true) := by
  obtain ⟨long, short, february⟩ := valid.last
  obtain ⟨monthFirst, monthLast, dayFirst, -⟩ := valid
  rw [dayOfYear, marchYear]
  split_ifs with early
  · rw [sub_add_cancel]
    rcases (show month = 1 ∨ month = 2 by omega) with rfl | rfl
    · exact ⟨by omega, .inl (by omega)⟩
    · rcases february rfl with ordinary | ⟨rfl, leap⟩
      · exact ⟨by omega, .inl (by omega)⟩
      · exact ⟨by omega, .inr ⟨rfl, leap⟩⟩
  · exact ⟨by omega, .inl (by omega)⟩

theorem IsDay.atPlace_dayOfYear (valid : IsDay year month day) :
    atPlace (marchYear year month) (dayOfYear month day) = (year, month, day) := by
  obtain ⟨long, short, february⟩ := valid.last
  obtain ⟨monthFirst, monthLast, dayFirst, -⟩ := valid
  have monthOfYear : (5 * dayOfYear month day + 2) / 153 =
      if month ≤ 2 then (month : Int) + 9 else month - 3 := by
    rw [dayOfYear]
    interval_cases month <;> simp at short february ⊢ <;> omega
  simp only [atPlace, monthOfYear, marchYear]
  rw [dayOfYear]
  by_cases early : month ≤ 2
  · have late : ¬ (month : Int) + 9 < 10 := by omega
    have back : (month : Int) + 9 - 9 ≤ 2 := by omega
    simp only [if_pos early, if_neg late, if_pos back, Prod.mk.injEq]
    omega
  · have soon : (month : Int) - 3 < 10 := by omega
    have back : ¬ (month : Int) - 3 + 3 ≤ 2 := by omega
    simp only [if_neg early, if_pos soon, if_neg back, Prod.mk.injEq, true_and]
    omega

end Months

section Numbers

variable {year number : Int} {month day : Nat}

/-- Days from the start of an era to a year that begins in March. -/
def marchDays (year : Int) : Int := year / 400 * 146097 + daysBefore (year % 400)

theorem dayNumber_eq (year : Int) (month day : Nat) :
    dayNumber year month day =
      marchDays (marchYear year month) + dayOfYear month day - 719468 := by
  simp only [dayNumber, Int.fdiv_eq_ediv_of_nonneg _ (show (0 : Int) ≤ 400 by decide)]
  rw [marchDays, Int.emod_def, daysBefore, dayOfYear, marchYear]
  ring_nf

theorem ofDayNumber_eq {era day : Int} (start : 0 ≤ day) (stop : day < 146097)
    (split : number = era * 146097 + day - 719468) :
    ofDayNumber number = atPlace (yearOfEra day + era * 400) (day - daysBefore (yearOfEra day)) := by
  have eras : (number + 719468).fdiv 146097 = era := by
    rw [Int.fdiv_eq_ediv_of_nonneg _ (by decide)]
    omega
  have days : number + 719468 - era * 146097 = day := by omega
  rw [ofDayNumber, eras, days]
  rfl

theorem IsDay.ofDayNumber_dayNumber (valid : IsDay year month day) :
    ofDayNumber (dayNumber year month day) = (year, month, day) := by
  obtain ⟨start, stop⟩ := valid.dayOfYear_bounds
  have cycle : isLeap (marchYear year month % 400 + 1) = isLeap (marchYear year month + 1) := by
    rw [Bool.eq_iff_iff, isLeap_iff, isLeap_iff]
    omega
  rw [← cycle] at stop
  have first : 0 ≤ marchYear year month % 400 := Int.emod_nonneg _ (by decide)
  have last : marchYear year month % 400 < 400 := Int.emod_lt_of_pos _ (by decide)
  obtain ⟨low, high⟩ := daysBefore_bounds first last start stop
  rw [ofDayNumber_eq low high (by rw [dayNumber_eq, marchDays, add_assoc]),
    yearOfEra_daysBefore first last start stop, add_sub_cancel_left, Int.emod_add_ediv_mul,
    valid.atPlace_dayOfYear]

/-- A year that begins in March has a day more if the next year is a leap year. -/
theorem marchDays_succ (year : Int) :
    marchDays (year + 1) = marchDays year + if isLeap (year + 1) = true then 366 else 365 := by
  have split : isLeap (year + 1) = true ↔ _ := isLeap_iff
  rw [marchDays, marchDays, daysBefore, daysBefore]
  split_ifs with leap
  · rw [split] at leap
    omega
  · rw [split] at leap
    omega

def next : Int × Nat × Nat → Int × Nat × Nat
  | (year, month, day) =>
      if day < daysInMonth year month then (year, month, day + 1)
      else if month < 12 then (year, month + 1, 1)
      else (year + 1, 1, 1)

theorem daysInMonth_pos (year : Int) (month : Nat) : 1 ≤ daysInMonth year month := by
  rw [daysInMonth]
  split_ifs <;> decide

theorem dayNumber_succ (year : Int) (month day : Nat) :
    dayNumber year month (day + 1) = dayNumber year month day + 1 := by
  rw [dayNumber_eq, dayNumber_eq, dayOfYear, dayOfYear]
  push_cast
  ring

theorem dayNumber_month_succ (first : 1 ≤ month) (last : month < 12) :
    dayNumber year (month + 1) 1 = dayNumber year month (daysInMonth year month) + 1 := by
  rw [dayNumber_eq, dayNumber_eq]
  by_cases february : month = 2
  · -- The year that begins in March ends with this month, which is as long as that year makes it.
    subst february
    have years := marchDays_succ (year - 1)
    rw [sub_add_cancel] at years
    simp only [marchYear, daysInMonth, dayOfYear, years, Nat.reduceAdd, Nat.reduceLeDiff, if_true,
      if_false]
    split_ifs <;> norm_num <;> ring
  · have years : marchYear year (month + 1) = marchYear year month := by
      simp only [marchYear]
      split_ifs <;> omega
    have days : dayOfYear (month + 1) 1 = dayOfYear month (daysInMonth year month) + 1 := by
      simp only [daysInMonth, if_neg february]
      interval_cases month <;> first | rfl | exact absurd rfl february
    rw [years, days]
    ring

theorem dayNumber_year_succ (year : Int) : dayNumber (year + 1) 1 1 = dayNumber year 12 31 + 1 := by
  simp only [dayNumber_eq, marchYear, dayOfYear]
  norm_num
  ring

theorem IsDay.exists_next (valid : IsDay year month day) : ∃ year' month' day',
    next (year, month, day) = (year', month', day') ∧ IsDay year' month' day' ∧
      dayNumber year' month' day' = dayNumber year month day + 1 := by
  obtain ⟨monthFirst, monthLast, dayFirst, dayLast⟩ := valid
  rw [next]
  split_ifs with inside early
  · exact ⟨year, month, day + 1, rfl, ⟨monthFirst, monthLast, by omega, inside⟩,
      dayNumber_succ year month day⟩
  · refine ⟨year, month + 1, 1, rfl, ⟨by omega, early, le_rfl, daysInMonth_pos _ _⟩, ?_⟩
    rw [dayNumber_month_succ monthFirst early, le_antisymm dayLast (not_lt.mp inside)]
  · obtain rfl : month = 12 := by omega
    obtain rfl : day = 31 := le_antisymm dayLast (not_lt.mp inside)
    exact ⟨year + 1, 1, 1, rfl, ⟨le_rfl, by decide, le_rfl, daysInMonth_pos _ _⟩,
      dayNumber_year_succ year⟩

theorem IsDay.cycle (valid : IsDay year month day) (cycles : Int) :
    IsDay (year + 400 * cycles) month day ∧
      dayNumber (year + 400 * cycles) month day = dayNumber year month day + 146097 * cycles := by
  have leap : isLeap (year + 400 * cycles) = isLeap year := by
    rw [Bool.eq_iff_iff, isLeap_iff, isLeap_iff]
    omega
  obtain ⟨monthFirst, monthLast, dayFirst, dayLast⟩ := valid
  refine ⟨⟨monthFirst, monthLast, dayFirst, ?_⟩, ?_⟩
  · rwa [daysInMonth, leap]
  · have years : marchYear (year + 400 * cycles) month = marchYear year month + 400 * cycles := by
      rw [marchYear, marchYear]
      split_ifs <;> ring
    have days : (marchYear year month + 400 * cycles) / 400 = marchYear year month / 400 + cycles :=
      Int.add_mul_ediv_left _ _ (by decide)
    rw [dayNumber_eq, dayNumber_eq, years, marchDays, marchDays, days, Int.add_mul_emod_self_left]
    ring

theorem exists_day (number : Int) : ∃ year month day,
    IsDay year month day ∧ dayNumber year month day = number := by
  -- From the first day of 1970 on, one day after the other has the next number. An earlier day is a
  -- later one some cycles of 400 years before.
  have later (count : Nat) : ∃ year month day,
      IsDay year month day ∧ dayNumber year month day = count := by
    induction count with
    | zero => exact ⟨1970, 1, 1, ⟨le_rfl, by decide, le_rfl, by decide⟩, by decide⟩
    | succ count ih =>
        obtain ⟨year, month, day, valid, same⟩ := ih
        obtain ⟨year', month', day', -, valid', next⟩ := valid.exists_next
        exact ⟨year', month', day', valid', by rw [next, same]; rfl⟩
  obtain ⟨year, month, day, valid, same⟩ := later (number + 146097 * number.natAbs).toNat
  obtain ⟨valid', back⟩ := valid.cycle (-number.natAbs)
  refine ⟨year + 400 * -number.natAbs, month, day, valid', ?_⟩
  rw [back, same]
  omega

theorem isDay_ofDayNumber (number : Int) : ∃ year month day,
    ofDayNumber number = (year, month, day) ∧ IsDay year month day ∧
      dayNumber year month day = number := by
  obtain ⟨year, month, day, valid, rfl⟩ := exists_day number
  exact ⟨year, month, day, valid.ofDayNumber_dayNumber, valid, rfl⟩

theorem ofDayNumber_succ (number : Int) : ofDayNumber (number + 1) = next (ofDayNumber number) := by
  obtain ⟨year, month, day, found, valid, same⟩ := isDay_ofDayNumber number
  obtain ⟨year', month', day', next, valid', same'⟩ := valid.exists_next
  rw [found, next, ← valid'.ofDayNumber_dayNumber, same', same]

theorem IsDay.dayNumber_bounds (valid : IsDay year month day) :
    dayNumber year 1 1 ≤ dayNumber year month day ∧
      dayNumber year month day ≤ dayNumber year 12 31 := by
  have longer : marchDays (year - 1) + 365 ≤ marchDays year := by
    have years := marchDays_succ (year - 1)
    rw [sub_add_cancel] at years
    split_ifs at years <;> omega
  obtain ⟨long, -, -⟩ := valid.last
  obtain ⟨start, stop⟩ := valid.dayOfYear_bounds
  obtain ⟨monthFirst, monthLast, dayFirst, -⟩ := valid
  have first : dayNumber year 1 1 = marchDays (year - 1) + 306 - 719468 := dayNumber_eq year 1 1
  have last : dayNumber year 12 31 = marchDays year + 305 - 719468 := dayNumber_eq year 12 31
  rw [first, last, dayNumber_eq, marchYear]
  rw [dayOfYear] at start stop ⊢
  split_ifs at start stop ⊢ <;> omega

/-- A day is inside some years if its number is between those of their first and last days. -/
theorem IsDay.year_iff (valid : IsDay year month day) {first last : Int} :
    first ≤ year ∧ year ≤ last ↔
      dayNumber first 1 1 ≤ dayNumber year month day ∧ dayNumber year month day ≤ dayNumber last 12 31 := by
  have newYear : StrictMono fun year => dayNumber year 1 1 := by
    refine strictMono_int_of_lt_succ fun year => ?_
    have whole : IsDay year 12 31 := ⟨by decide, le_rfl, by decide, le_rfl⟩
    have next := dayNumber_year_succ year
    have bounds := whole.dayNumber_bounds.1
    omega
  obtain ⟨start, stop⟩ := valid.dayNumber_bounds
  have next := dayNumber_year_succ year
  have after := dayNumber_year_succ last
  refine and_congr ⟨fun inside => ?_, fun inside => ?_⟩ ⟨fun inside => ?_, fun inside => ?_⟩
  · exact (newYear.monotone inside).trans start
  · by_contra outside
    have later := newYear.monotone (Int.add_one_le_of_lt (not_le.mp outside))
    omega
  · have later := newYear.monotone (Int.add_le_add_right inside 1)
    omega
  · by_contra outside
    have later := newYear.monotone (Int.add_one_le_of_lt (not_le.mp outside))
    omega

end Numbers

end RowStore.Civil

namespace RowStore.Date

open Civil (IsDay dayNumber)

variable {year : Int} {month day : Nat}

theorem inRange_iff (valid : IsDay year month day) :
    -96465292 ≤ dayNumber year month day ∧ dayNumber year month day ≤ 95026236 ↔
      -262143 ≤ year ∧ year ≤ 262142 := by
  have first : dayNumber (-262143) 1 1 = -96465292 := by decide
  have last : dayNumber 262142 12 31 = 95026236 := by decide
  rw [valid.year_iff, first, last]

theorem civil_cases (date : Date) : ∃ year month day, date.civil = (year, month, day) ∧
    IsDay year month day ∧ dayNumber year month day = date.day ∧
      -262143 ≤ year ∧ year ≤ 262142 := by
  obtain ⟨year, month, day, found, valid, same⟩ := Civil.isDay_ofDayNumber date.day
  exact ⟨year, month, day, found, valid, same, (inRange_iff valid).mp (same ▸ date.inRange)⟩

theorem ofCivil?_civil (date : Date) :
    ofCivil? date.civil.1 date.civil.2.1 date.civil.2.2 = some date := by
  obtain ⟨year, month, day, shown, valid, same, -⟩ := date.civil_cases
  rw [shown, ofCivil?, if_pos ⟨valid.monthFirst, valid.monthLast, valid.dayFirst, valid.dayLast⟩, same,
    ofDay?, dif_pos date.inRange]

theorem day_of_ofDay? {number : Int} {date : Date} (made : ofDay? number = some date) :
    date.day = number := by
  rw [ofDay?] at made
  split_ifs at made
  exact congrArg Date.day (Option.some.inj made).symm

theorem civil_of_ofCivil? {date : Date} (made : ofCivil? year month day = some date) :
    date.civil = (year, month, day) := by
  rw [ofCivil?] at made
  split_ifs at made with valid
  rw [civil, day_of_ofDay? made]
  exact IsDay.ofDayNumber_dayNumber ⟨valid.1, valid.2.1, valid.2.2.1, valid.2.2.2⟩

theorem exists_day_iff {number : Int} : (∃ date : Date, date.day = number) ↔
    ∃ year month day, IsDay year month day ∧ -262143 ≤ year ∧ year ≤ 262142 ∧
      dayNumber year month day = number := by
  constructor
  · rintro ⟨date, rfl⟩
    obtain ⟨year, month, day, -, valid, same, years⟩ := date.civil_cases
    exact ⟨year, month, day, valid, years.1, years.2, same⟩
  · rintro ⟨year, month, day, valid, first, last, rfl⟩
    exact ⟨⟨_, (inRange_iff valid).mpr ⟨first, last⟩⟩, rfl⟩

end RowStore.Date
