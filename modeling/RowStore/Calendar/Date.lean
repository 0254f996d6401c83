import RowStore.Text.Blank
import RowStore.Text.Digits

/-! Days of the proleptic Gregorian calendar.

A date is a day number counted from 1970-01-01. The years run from -262143 to 262142. Years are
counted from March inside an era of 400 years, so that the leap day is the last of its year.
-/

namespace RowStore

namespace Civil

/-- Days from 1970-01-01 to a day of the calendar. -/
def dayNumber (year : Int) (month day : Nat) : Int :=
  let shifted := if month ≤ 2 then year - 1 else year
  let era := shifted.fdiv 400
  let yearOfEra := shifted - era * 400
  let monthOfYear : Int := if month ≤ 2 then month + 9 else month - 3
  let dayOfYear := (153 * monthOfYear + 2) / 5 + day - 1
  let dayOfEra := yearOfEra * 365 + yearOfEra / 4 - yearOfEra / 100 + dayOfYear
  era * 146097 + dayOfEra - 719468

/-- Year, month and day of a day number. -/
def ofDayNumber (number : Int) : Int × Nat × Nat :=
  let shifted := number + 719468
  let era := shifted.fdiv 146097
  let dayOfEra := shifted - era * 146097
  let yearOfEra :=
    (dayOfEra - dayOfEra / 1460 + dayOfEra / 36524 - dayOfEra / 146096) / 365
  let dayOfYear := dayOfEra - (365 * yearOfEra + yearOfEra / 4 - yearOfEra / 100)
  let monthOfYear := (5 * dayOfYear + 2) / 153
  let day := dayOfYear - (153 * monthOfYear + 2) / 5 + 1
  let month := if monthOfYear < 10 then monthOfYear + 3 else monthOfYear - 9
  let year := yearOfEra + era * 400
  (if month ≤ 2 then year + 1 else year, month.toNat, day.toNat)

def isLeap (year : Int) : Bool := year % 4 = 0 && (year % 100 ≠ 0 || year % 400 = 0)

def daysInMonth (year : Int) (month : Nat) : Nat :=
  if month = 2 then if isLeap year then 29 else 28
  else if month = 4 ∨ month = 6 ∨ month = 9 ∨ month = 11 then 30
  else 31

end Civil

structure Date where
  day : Int
  inRange : -96465292 ≤ day ∧ day ≤ 95026236
deriving Repr, DecidableEq

namespace Date

def ofDay? (day : Int) : Option Date :=
  if inRange : -96465292 ≤ day ∧ day ≤ 95026236 then some ⟨day, inRange⟩ else none

def ofCivil? (year : Int) (month day : Nat) : Option Date :=
  if 1 ≤ month ∧ month ≤ 12 ∧ 1 ≤ day ∧ day ≤ Civil.daysInMonth year month then
    ofDay? (Civil.dayNumber year month day)
  else none

end Date

namespace Text

/-- A year of up to four digits, or a sign and any number of digits. -/
def takeYear? (text : List Char) : Option (Int × List Char) :=
  match text with
  | '-' :: rest => (takeNumber? 1 rest.length rest).map fun (year, after) => (-(year : Int), after)
  | '+' :: rest => (takeNumber? 1 rest.length rest).map fun (year, after) => ((year : Int), after)
  | _ => (takeNumber? 1 4 text).map fun (year, after) => ((year : Int), after)

/-- Year, month and day with a hyphen between them. White space may stand before each number. -/
def readDate? (text : List Char) : Option Date := do
  let (year, text) ← takeYear? (trimLeft text)
  let text ← takeChar? '-' text
  let (month, text) ← takeNumber? 1 2 (trimLeft text)
  let text ← takeChar? '-' text
  let (day, text) ← takeNumber? 1 2 (trimLeft text)
  if text.isEmpty then Date.ofCivil? year month day else none

/-- Four digits, or a sign and at least four digits outside the years 0 to 9999. -/
def yearText (year : Int) : List Char :=
  if 0 ≤ year ∧ year ≤ 9999 then zeroPadded 4 year.toNat
  else (if year < 0 then '-' else '+') :: zeroPadded 4 year.natAbs

end Text

namespace Date

def civil (date : Date) : Int × Nat × Nat := Civil.ofDayNumber date.day

def textChars (date : Date) : List Char :=
  let (year, month, day) := date.civil
  Text.yearText year ++ '-' :: Text.zeroPadded 2 month ++ '-' :: Text.zeroPadded 2 day

def text (date : Date) : String := String.ofList date.textChars

end Date

end RowStore
