import RowStore.Calendar.Date

/-! Points in time on the universal time scale.

An instant is a count of seconds from 1970-01-01 and a part of a second in nanoseconds. A part of a
second or more stands for a leap second, which only the last second of a minute can have. The text
form is that of RFC 3339: a date, a time of day and an offset.
-/

namespace RowStore

structure Instant where
  seconds : Int
  nanos : Nat
  onCalendar : -96465292 ≤ seconds / 86400 ∧ seconds / 86400 ≤ 95026236
  fraction : nanos < 1000000000 ∨ (nanos < 2000000000 ∧ seconds % 60 = 59)
deriving Repr, DecidableEq

namespace Instant

def ofParts? (seconds nanos : Int) : Option Instant :=
  if 0 ≤ nanos then
    if onCalendar : -96465292 ≤ seconds / 86400 ∧ seconds / 86400 ≤ 95026236 then
      if fraction : nanos.toNat < 1000000000 ∨ (nanos.toNat < 2000000000 ∧ seconds % 60 = 59) then
        some ⟨seconds, nanos.toNat, onCalendar, fraction⟩
      else none
    else none
  else none

/-- The day on which the instant falls. -/
def date (instant : Instant) : Date := ⟨instant.seconds / 86400, instant.onCalendar⟩

end Instant

namespace Text

/-- Nanoseconds after a point. Digits past the ninth are read and dropped. -/
def takeNanos? (text : List Char) : Option (Nat × List Char) := do
  let (value, rest) ← takeNumber? 1 9 text
  let digits := text.length - rest.length
  some (value * Nat.pow 10 (9 - digits), rest.dropWhile isDigit)

/-- The sign of an offset. The minus sign of mathematics counts as one. -/
def takeSign? : List Char → Option (Bool × List Char)
  | '+' :: rest => some (false, rest)
  | '-' :: rest => some (true, rest)
  | '−' :: rest => some (true, rest)
  | _ => none

/-- Seconds east of the universal scale: `Z`, or a sign, hours and minutes. -/
def takeOffset? (text : List Char) : Option (Int × List Char) :=
  match text with
  | 'Z' :: rest | 'z' :: rest => some (0, rest)
  | _ => do
      let (west, text) ← takeSign? text
      let (hours, text) ← takeNumber? 2 2 text
      let text ← takeChar? ':' text
      let (minutes, text) ← takeNumber? 2 2 text
      if hours ≤ 23 ∧ minutes ≤ 59 then
        let seconds : Int := hours * 3600 + minutes * 60
        some (if west then -seconds else seconds, text)
      else none

def takeSeparator? : List Char → Option (List Char)
  | 'T' :: rest | 't' :: rest | ' ' :: rest => some rest
  | _ => none

def takeFraction? (text : List Char) : Option (Nat × List Char) :=
  match text with
  | '.' :: rest => takeNanos? rest
  | _ => some (0, text)

/-- Second 60 is the leap second after second 59. -/
def readInstant? (text : List Char) : Option Instant := do
  let (year, text) ← takeNumber? 4 4 text
  let text ← takeChar? '-' text
  let (month, text) ← takeNumber? 2 2 text
  let text ← takeChar? '-' text
  let (day, text) ← takeNumber? 2 2 text
  let text ← takeSeparator? text
  let (hour, text) ← takeNumber? 2 2 text
  let text ← takeChar? ':' text
  let (minute, text) ← takeNumber? 2 2 text
  let text ← takeChar? ':' text
  let (second, text) ← takeNumber? 2 2 text
  let (nanos, text) ← takeFraction? text
  let (offset, text) ← takeOffset? text
  let date ← Date.ofCivil? year month day
  if text.isEmpty ∧ hour ≤ 23 ∧ minute ≤ 59 ∧ second ≤ 60 then
    let leap := second = 60
    let ofDay : Int := hour * 3600 + minute * 60 + (if leap then 59 else second)
    Instant.ofParts? (date.day * 86400 + ofDay - offset) (if leap then nanos + 1000000000 else nanos)
  else none

/-- No fraction, or three, six or nine digits of it, whichever is exact. -/
def fractionText (nanos : Nat) : List Char :=
  if nanos = 0 then []
  else if nanos % 1000000 = 0 then '.' :: zeroPadded 3 (nanos / 1000000)
  else if nanos % 1000 = 0 then '.' :: zeroPadded 6 (nanos / 1000)
  else '.' :: zeroPadded 9 nanos

end Text

namespace Instant

def textChars (instant : Instant) : List Char :=
  let ofDay := (instant.seconds % 86400).toNat
  let leap := 1000000000 ≤ instant.nanos
  let second := ofDay % 60 + (if leap then 1 else 0)
  let nanos := if leap then instant.nanos - 1000000000 else instant.nanos
  instant.date.textChars ++ 'T' :: Text.zeroPadded 2 (ofDay / 3600) ++
    ':' :: Text.zeroPadded 2 (ofDay / 60 % 60) ++ ':' :: Text.zeroPadded 2 second ++
    Text.fractionText nanos ++ ['Z']

def text (instant : Instant) : String := String.ofList instant.textChars

end Instant

/-- How dates and instants are read and written as texts. -/
class CalendarText where
  readDate? : List Char → Option Date
  readInstant? : List Char → Option Instant
  ofDate : Date → String
  ofInstant : Instant → String

end RowStore
