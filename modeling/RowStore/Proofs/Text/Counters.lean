import Mathlib
import RowStore.Proofs.Outcome
import RowStore.Proofs.Text.Decimal

/-! The counters of a decimal scan.

A scan counts the digits after the point and accumulates the exponent in 32-bit integers. The exponent
stays at the greatest of them once it is there, and the scale made of both stays at the least. Still,
reading a decimal comes to a trap in two cases: where more digits stand after the point than can be
counted, and where the scale is the least integer, because its negation is none of them.
-/

namespace RowStore.Text

/-- More digits stand after the point than can be counted, whatever follows them. -/
def Uncountable (text : List Char) : Prop :=
  ∃ sign whole fraction rest, text = sign ++ (whole ++ '.' :: (fraction ++ rest)) ∧ IsSign sign ∧
    IsDigits whole ∧ IsDigits fraction ∧ counterLimit < fraction.length

/-- A decimal with digits after the point and a negative exponent, which together lower the scale past
the negated limit. -/
def Unscalable (text : List Char) : Prop :=
  ∃ sign whole fraction mark digits,
    text = sign ++ (whole ++ '.' :: (fraction ++ mark :: '-' :: digits)) ∧ IsSign sign ∧
      IsDigits whole ∧ IsDigits fraction ∧ fraction ≠ [] ∧ (mark = 'e' ∨ mark = 'E') ∧
      IsDigits digits ∧ digits ≠ [] ∧ counterLimit < digitsValue digits + fraction.length

namespace DecimalScan

variable {scan next last : DecimalScan} {text rest digits : List Char} {c : Char}

section Steps

/-- The scan after a digit of the mantissa. -/
def counted (scan : DecimalScan) (c : Char) : DecimalScan :=
  { scan with
    mantissa := (scan.mantissa.mul (.ofInt 10)).add (.ofInt (c.toNat - 48 : Nat))
    digits := scan.digits + 1
    places := if scan.pointSeen then scan.places + 1 else scan.places }

/-- There is no room for another place. -/
def IsFull (scan : DecimalScan) : Prop := scan.pointSeen = true ∧ scan.places = counterLimit

theorem step_digit (opened : scan.exponent = none) (digit : isDigit c = true) (room : ¬ scan.IsFull) :
    scan.step text c = .ok (scan.counted c) := by
  have free : ¬ (scan.pointSeen = true ∧ scan.places = counterLimit) := room
  rw [step, opened]
  simp only [stepMantissa, digit?_eq, digit, if_true, if_neg free]
  rfl

theorem step_full (opened : scan.exponent = none) (digit : isDigit c = true) (full : scan.IsFull) :
    scan.step text c = .error (.trap .overflow) := by
  rw [step, opened]
  simp [stepMantissa, digit?_eq, digit, full.1, full.2]

theorem step_point (opened : scan.exponent = none) (unseen : scan.pointSeen = false) :
    scan.step text '.' = .ok { scan with pointSeen := true } := by
  rw [step, opened]
  simp [stepMantissa, digit?, unseen, opened]

theorem step_mark (opened : scan.exponent = none) (mark : c = 'e' ∨ c = 'E') :
    scan.step text c = .ok { scan with exponent := some ⟨false, 0, 0, true⟩ } := by
  rw [step, opened]
  rcases mark with rfl | rfl <;> simp [stepMantissa, digit?]

/-- What a character can do to a scan that has not come to an exponent: a digit is counted if there is
room, a first point and an exponent mark are noted, and everything else is refused. -/
theorem step_mantissa (opened : scan.exponent = none) (text : List Char) (c : Char) :
    (isDigit c = true ∧ scan.IsFull ∧ scan.step text c = .error (.trap .overflow)) ∨
      (isDigit c = true ∧ ¬ scan.IsFull ∧ scan.step text c = .ok (scan.counted c)) ∨
      (c = '.' ∧ scan.pointSeen = false ∧ scan.step text c = .ok { scan with pointSeen := true }) ∨
      ((c = 'e' ∨ c = 'E') ∧
        scan.step text c = .ok { scan with exponent := some ⟨false, 0, 0, true⟩ }) ∨
      ∃ flaw, scan.step text c = .error (malformed text flaw) := by
  cases digit : isDigit c with
  | true =>
      by_cases full : scan.IsFull
      · exact .inl ⟨rfl, full, step_full opened digit full⟩
      · exact .inr (.inl ⟨rfl, full, step_digit opened digit full⟩)
  | false =>
      by_cases mark : c = 'e' ∨ c = 'E'
      · exact .inr (.inr (.inr (.inl ⟨mark, step_mark opened mark⟩)))
      · have taken : scan.step text c = scan.stepMantissa text c := by rw [step, opened]
        cases seen : scan.pointSeen with
        | true =>
            rw [taken, stepMantissa, digit?_eq, digit]
            by_cases point : c = '.' <;> simp [point, mark, seen]
        | false =>
            by_cases point : c = '.'
            · subst point
              exact .inr (.inr (.inl ⟨rfl, rfl, step_point opened seen⟩))
            · rw [taken, stepMantissa, digit?_eq, digit]
              simp [point, mark]

/-- The counters are in range. -/
def InRange (scan : DecimalScan) : Prop :=
  scan.places ≤ counterLimit ∧ ∀ exponent ∈ scan.exponent, exponent.magnitude ≤ counterLimit

theorem InRange.step (inRange : scan.InRange) (stepped : scan.step text c = .ok next) :
    next.InRange := by
  obtain ⟨places, powers⟩ := inRange
  cases found : scan.exponent with
  | none =>
      rcases step_mantissa found text c with ⟨-, -, trapped⟩ | ⟨-, room, digit⟩ | ⟨-, -, point⟩ |
        ⟨-, mark⟩ | ⟨flaw, refused⟩
      · simp [trapped] at stepped
      · cases digit.symm.trans stepped
        refine ⟨?_, by simp [counted, found]⟩
        simp only [counted]
        split
        · rename_i seen
          have less : scan.places ≠ counterLimit := fun full => room ⟨seen, full⟩
          omega
        · exact places
      · cases point.symm.trans stepped
        exact ⟨places, powers⟩
      · cases mark.symm.trans stepped
        exact ⟨places, by simp⟩
      · simp [refused] at stepped
  | some exponent =>
      have bounded := powers exponent found
      rw [DecimalScan.step, found] at stepped
      obtain ⟨after, moved, rfl⟩ := Outcome.map_eq_ok_iff.mp stepped
      refine ⟨places, ?_⟩
      rw [ExponentScan.step.eq_def] at moved
      split at moved
      · cases moved
        simp
      · split_ifs at moved
        cases moved
        simpa using bounded

theorem InRange.run (inRange : scan.InRange) (scanned : scan.run text rest = .ok last) :
    last.InRange := by
  induction rest generalizing scan with
  | nil =>
      cases scanned
      exact inRange
  | cons c rest ih =>
      rw [DecimalScan.run] at scanned
      cases stepped : scan.step text c with
      | error reason => simp [stepped] at scanned
      | ok next =>
          rw [stepped] at scanned
          exact ih (inRange.step stepped) scanned

theorem inRange_start : start.InRange := ⟨Nat.zero_le _, by simp [start]⟩

end Steps

section Runs

theorem run_append (text : List Char) (scan : DecimalScan) (front back : List Char) :
    scan.run text (front ++ back) = scan.run text front >>= fun next => next.run text back := by
  induction front generalizing scan with
  | nil => rfl
  | cons c front ih =>
      rw [List.cons_append, run, run]
      cases scan.step text c with
      | error reason => rfl
      | ok next => exact ih next

/-- Digits before the point are read without being counted as places, and those behind it are counted
as long as there is room. -/
theorem run_digits (text : List Char) (opened : scan.exponent = none) (read : IsDigits digits)
    (room : scan.pointSeen = true → scan.places + digits.length ≤ counterLimit) :
    ∃ last, scan.run text digits = .ok last ∧ last.exponent = none ∧
      last.pointSeen = scan.pointSeen ∧ last.digits = scan.digits + digits.length ∧
      last.places = if scan.pointSeen then scan.places + digits.length else scan.places := by
  induction digits generalizing scan with
  | nil => exact ⟨scan, rfl, opened, rfl, rfl, by simp⟩
  | cons c digits ih =>
      obtain ⟨digit, read⟩ := Phase.isDigits_cons.mp read
      have free : ¬ scan.IsFull := by
        rintro ⟨seen, full⟩
        have := room seen
        simp only [List.length_cons] at this
        omega
      have opened' : (scan.counted c).exponent = none := opened
      have room' : (scan.counted c).pointSeen = true →
          (scan.counted c).places + digits.length ≤ counterLimit := by
        intro seen
        have seen' : scan.pointSeen = true := seen
        have enough := room seen'
        simp only [counted, seen', if_true, List.length_cons] at enough ⊢
        omega
      obtain ⟨last, scanned, closed, seen, digits', places⟩ := ih opened' read room'
      refine ⟨last, by rw [run, step_digit opened digit free]; exact scanned, closed, seen, ?_, ?_⟩
      · rw [digits', List.length_cons]
        simp only [counted]
        omega
      · rw [places, List.length_cons]
        simp only [counted]
        split <;> omega

/-- Digits that there is no room for end in a trap, whatever follows them. -/
theorem run_full (opened : scan.exponent = none) (seen : scan.pointSeen = true)
    (inside : scan.places ≤ counterLimit) (read : IsDigits digits)
    (long : counterLimit < scan.places + digits.length) (rest : List Char) :
    scan.run text (digits ++ rest) = .error (.trap .overflow) := by
  induction digits generalizing scan with
  | nil =>
      simp only [List.length_nil] at long
      omega
  | cons c digits ih =>
      obtain ⟨digit, read⟩ := Phase.isDigits_cons.mp read
      rw [List.cons_append, run]
      by_cases full : scan.IsFull
      · rw [step_full opened digit full]
      · have less : scan.places ≠ counterLimit := fun same => full ⟨seen, same⟩
        have opened' : (scan.counted c).exponent = none := opened
        have places : (scan.counted c).places = scan.places + 1 := if_pos seen
        rw [step_digit opened digit full]
        simp only [List.length_cons] at long
        exact ih opened' seen (by omega) read (by omega)

/-- Nothing that follows an exponent mark comes to a trap. -/
theorem run_ne_trap (started : scan.exponent.isSome = true) :
    scan.run text rest ≠ .error (.trap .overflow) := by
  induction rest generalizing scan with
  | nil => simp [run]
  | cons c rest ih =>
      obtain ⟨exponent, found⟩ := Option.isSome_iff_exists.mp started
      rw [run]
      rcases step_exponent found text c with
        ⟨-, after, digit, -⟩ | ⟨-, -, -, sign⟩ | ⟨-, -, flaw, refused⟩
      · rw [digit]
        exact ih rfl
      · rw [sign]
        exact ih rfl
      · simp [refused, malformed]

/-- A trap behind the point is due to digits there that cannot be counted. -/
theorem exists_fraction (opened : scan.exponent = none) (seen : scan.pointSeen = true)
    (trapped : scan.run text rest = .error (.trap .overflow)) :
    ∃ fraction tail, rest = fraction ++ tail ∧ IsDigits fraction ∧
      counterLimit < scan.places + fraction.length := by
  induction rest generalizing scan with
  | nil => cases trapped
  | cons c rest ih =>
      rw [run] at trapped
      rcases step_mantissa opened text c with ⟨digit, full, -⟩ | ⟨digit, -, counted⟩ |
        ⟨-, unseen, -⟩ | ⟨-, mark⟩ | ⟨flaw, refused⟩
      · refine ⟨[c], rest, rfl, by simpa [IsDigits] using digit, ?_⟩
        simp [full.2]
      · rw [counted] at trapped
        have opened' : (scan.counted c).exponent = none := opened
        obtain ⟨fraction, tail, rfl, read, long⟩ := ih opened' seen trapped
        have places : (scan.counted c).places = scan.places + 1 := if_pos seen
        refine ⟨c :: fraction, tail, rfl, Phase.isDigits_cons.mpr ⟨digit, read⟩, ?_⟩
        rw [List.length_cons]
        omega
      · simp [seen] at unseen
      · rw [mark] at trapped
        exact absurd trapped (run_ne_trap rfl)
      · simp [refused, malformed] at trapped

theorem exists_whole (opened : scan.exponent = none) (unseen : scan.pointSeen = false)
    (unplaced : scan.places = 0) (trapped : scan.run text rest = .error (.trap .overflow)) :
    ∃ whole fraction tail, rest = whole ++ '.' :: (fraction ++ tail) ∧ IsDigits whole ∧
      IsDigits fraction ∧ counterLimit < fraction.length := by
  induction rest generalizing scan with
  | nil => cases trapped
  | cons c rest ih =>
      rw [run] at trapped
      rcases step_mantissa opened text c with ⟨-, full, -⟩ | ⟨digit, -, counted⟩ |
        ⟨rfl, -, point⟩ | ⟨-, mark⟩ | ⟨flaw, refused⟩
      · simp [full.1] at unseen
      · rw [counted] at trapped
        have opened' : (scan.counted c).exponent = none := opened
        have places : (scan.counted c).places = 0 := by simp [DecimalScan.counted, unseen, unplaced]
        obtain ⟨whole, fraction, tail, rfl, readWhole, read, long⟩ := ih opened' unseen places trapped
        exact ⟨c :: whole, fraction, tail, rfl, Phase.isDigits_cons.mpr ⟨digit, readWhole⟩, read, long⟩
      · rw [point] at trapped
        have opened' : ({ scan with pointSeen := true } : DecimalScan).exponent = none := opened
        obtain ⟨fraction, tail, rfl, read, long⟩ := exists_fraction opened' rfl trapped
        simp only [unplaced, zero_add] at long
        exact ⟨[], fraction, tail, rfl, List.forall_mem_nil _, read, long⟩
      · rw [mark] at trapped
        exact absurd trapped (run_ne_trap rfl)
      · simp [refused, malformed] at trapped

/-- The exponent is the number that its digits write, or the limit if it is greater. -/
theorem run_power (text : List Char) {exponent : ExponentScan} {value : Nat}
    (found : scan.exponent = some exponent) (saturated : exponent.magnitude = min value counterLimit)
    (read : IsDigits digits) :
    ∃ after, scan.run text digits = .ok { scan with exponent := some after } ∧
      after.negative = exponent.negative ∧ after.digits = exponent.digits + digits.length ∧
      after.magnitude =
        min (digits.foldl (fun value c => 10 * value + (c.toNat - 48)) value) counterLimit := by
  induction digits generalizing scan exponent value with
  | nil =>
      refine ⟨exponent, ?_, rfl, rfl, saturated⟩
      rw [← found]
      rfl
  | cons c digits ih =>
      obtain ⟨digit, read⟩ := Phase.isDigits_cons.mp read
      let next : ExponentScan := { exponent with
        magnitude := min (10 * exponent.magnitude + (c.toNat - 48)) counterLimit
        digits := exponent.digits + 1
        fresh := false }
      have stepped : scan.step text c = .ok { scan with exponent := some next } := by
        rw [step, found]
        simp only [ExponentScan.step, digit?_eq, digit, if_true]
        rfl
      have saturated' : next.magnitude = min (10 * value + (c.toNat - 48)) counterLimit := by
        simp only [next, saturated, counterLimit]
        omega
      have found' : ({ scan with exponent := some next } : DecimalScan).exponent = some next := rfl
      obtain ⟨after, scanned, negative, digits', magnitude⟩ := ih found' saturated' read
      have more : next.digits = exponent.digits + 1 := rfl
      refine ⟨after, by rw [run, stepped]; exact scanned, negative, ?_, magnitude⟩
      rw [digits', more, List.length_cons]
      omega

theorem run_exponent (text : List Char) {mark : Char} {sign : List Char}
    (opened : scan.exponent = none) (marked : mark = 'e' ∨ mark = 'E') (signed : IsSign sign)
    (read : IsDigits digits) :
    ∃ after, scan.run text (mark :: (sign ++ digits)) = .ok { scan with exponent := some after } ∧
      after.negative = decide (sign = ['-']) ∧ after.digits = digits.length ∧
      after.magnitude = min (digitsValue digits) counterLimit := by
  have run_signed (exponent : ExponentScan) (zero : exponent.magnitude = 0)
      (none : exponent.digits = 0) :
      ∃ after, ({ scan with exponent := some exponent } : DecimalScan).run text digits =
          .ok { scan with exponent := some after } ∧
        after.negative = exponent.negative ∧ after.digits = digits.length ∧
        after.magnitude = min (digitsValue digits) counterLimit := by
    have found : ({ scan with exponent := some exponent } : DecimalScan).exponent = some exponent :=
      rfl
    have saturated : exponent.magnitude = min 0 counterLimit := by simp [zero]
    obtain ⟨after, scanned, negative, digits', magnitude⟩ := run_power text found saturated read
    exact ⟨after, scanned, negative, by omega, magnitude⟩
  rw [run, step_mark opened marked]
  rcases signed with rfl | rfl | rfl
  · exact run_signed _ rfl rfl
  · exact run_signed ⟨false, 0, 0, false⟩ rfl rfl
  · exact run_signed ⟨true, 0, 0, false⟩ rfl rfl

theorem run_point (text : List Char) {whole : List Char} (read : IsDigits whole) (rest : List Char) :
    ∃ scan : DecimalScan, scan.exponent = none ∧ scan.pointSeen = true ∧ scan.places = 0 ∧
      scan.digits = whole.length ∧
      start.run text (whole ++ '.' :: rest) = scan.run text rest := by
  have begun : start.exponent = none := rfl
  obtain ⟨scan, scanned, opened, unseen, counted, places⟩ :=
    run_digits text begun read (by simp [start])
  refine ⟨{ scan with pointSeen := true }, opened, rfl, ?_, ?_, ?_⟩
  · simp [places, start]
  · simp [counted, start]
  · rw [run_append, scanned]
    change scan.run text ('.' :: rest) = _
    rw [run, step_point opened unseen]

/-- An exponent that was read to be negative has a minus sign and the magnitude of its digits, up to
the limit. -/
theorem exists_power {ending : List Char} {exponent : ExponentScan} (opened : scan.exponent = none)
    (ends : IsExponent ending) (scanned : scan.run text ending = .ok last)
    (found : last.exponent = some exponent) (below : exponent.negative = true) :
    last.places = scan.places ∧ ∃ mark digits, ending = mark :: '-' :: digits ∧
      (mark = 'e' ∨ mark = 'E') ∧ IsDigits digits ∧ digits ≠ [] ∧
      exponent.magnitude = min (digitsValue digits) counterLimit := by
  rcases ends with rfl | ⟨mark, sign, digits, rfl, marked, signed, read, some⟩
  · cases scanned
    simp [opened] at found
  · obtain ⟨after, finished, negative, -, magnitude⟩ :=
      run_exponent text opened marked signed read
    cases finished.symm.trans scanned
    cases found
    obtain rfl : sign = ['-'] := by simpa [negative] using below
    exact ⟨rfl, mark, digits, rfl, marked, read, some, magnitude⟩

end Runs

/-- What was read comes to a trap at the end just if it is complete and its exponent is negative and,
together with the places, past the limit. -/
theorem finish_trap_iff (inRange : scan.InRange) (text : List Char) (negative : Bool) :
    scan.finish text negative = .error (.trap .overflow) ↔
      scan.Complete ∧ ∃ exponent, scan.exponent = some exponent ∧ exponent.negative = true ∧
        counterLimit < exponent.magnitude + scan.places := by
  by_cases complete : scan.Complete
  · rw [and_iff_right complete]
    obtain ⟨some, powers⟩ := complete
    obtain ⟨places, bounded⟩ := inRange
    have scaled_iff {scale : Int} (scaling : scan.scale text = .ok scale) :
        scan.finish text negative = .error (.trap .overflow) ↔ scale = -counterLimit - 1 := by
      rw [finish, if_neg some.ne', scaling]
      simp only [bind, Except.bind, scaled]
      by_cases least : scale = -counterLimit - 1
      · simp [least]
      · by_cases below : scale < 0 <;> simp [least, below]
    cases found : scan.exponent with
    | none =>
        have scaling : scan.scale text = .ok (-scan.places) := by rw [scale, found]
        rw [scaled_iff scaling]
        simp only [reduceCtorEq, false_and, exists_false, iff_false]
        omega
    | some exponent =>
        have positive := powers exponent found
        have small := bounded exponent found
        have scaling : scan.scale text = .ok (max ((if exponent.negative then
            -(exponent.magnitude : Int) else exponent.magnitude) - scan.places)
              (-counterLimit - 1)) := by
          rw [scale, found]
          simp only [if_neg positive.ne']
        rw [scaled_iff scaling]
        simp only [Option.some.injEq, exists_eq_left']
        cases exponent.negative with
        | true =>
            simp only [if_true, true_and]
            omega
        | false =>
            simp only [Bool.false_eq_true, if_false, false_and, iff_false]
            omega
  · obtain ⟨flaw, refused⟩ := finish_of_not_complete complete text negative
    simp [refused, complete, malformed]

/-- Without a point there are no places, and the saturated exponent alone is not past the limit. -/
theorem finish_ne_trap {ending : List Char} {negative : Bool} (read : IsDigits digits)
    (ends : IsExponent ending) (scanned : start.run text (digits ++ ending) = .ok last) :
    last.finish text negative ≠ .error (.trap .overflow) := by
  intro trapped
  obtain ⟨-, exponent, found, below, deep⟩ :=
    (finish_trap_iff (inRange_start.run scanned) text negative).mp trapped
  have begun : start.exponent = none := rfl
  obtain ⟨before, mantissa, opened, -, -, places⟩ := run_digits text begun read (by simp [start])
  rw [run_append, mantissa] at scanned
  obtain ⟨same, mark, powers, -, -, -, -, magnitude⟩ :=
    exists_power opened ends scanned found below
  simp only [start, Bool.false_eq_true, if_false] at places
  omega

/-- With a point, the digits behind it and the exponent are what leads past the limit. -/
theorem exists_of_finish_trap {whole fraction ending : List Char} {negative : Bool}
    (readWhole : IsDigits whole) (read : IsDigits fraction) (ends : IsExponent ending)
    (countable : fraction.length ≤ counterLimit)
    (scanned : start.run text (whole ++ '.' :: (fraction ++ ending)) = .ok last)
    (trapped : last.finish text negative = .error (.trap .overflow)) :
    fraction ≠ [] ∧ ∃ mark digits, ending = mark :: '-' :: digits ∧ (mark = 'e' ∨ mark = 'E') ∧
      IsDigits digits ∧ digits ≠ [] ∧ counterLimit < digitsValue digits + fraction.length := by
  obtain ⟨-, exponent, found, below, deep⟩ :=
    (finish_trap_iff (inRange_start.run scanned) text negative).mp trapped
  obtain ⟨point, opened, seen, unplaced, -, behind⟩ := run_point text readWhole (fraction ++ ending)
  obtain ⟨before, counted, closed, -, -, places⟩ := run_digits text opened read (by omega)
  rw [behind, run_append, counted] at scanned
  obtain ⟨same, mark, digits, written, marked, readPower, some, magnitude⟩ :=
    exists_power closed ends scanned found below
  rw [if_pos seen] at places
  have deep' : counterLimit < digitsValue digits + fraction.length := by omega
  refine ⟨?_, mark, digits, written, marked, readPower, some, deep'⟩
  rintro rfl
  simp only [List.length_nil] at places
  omega

end DecimalScan

/-- What is no decimal is refused as malformed, if it is not too long for the counters; and what is
one is never refused, though its counters may trap. -/
theorem readDecimal_cases (text : List Char) :
    (IsDecimal text ∧ ((∃ value, readDecimal text = .ok value) ∨
        readDecimal text = .error (.trap .overflow))) ∨
      (¬ IsDecimal text ∧ ((∃ flaw, readDecimal text = .error (malformed text flaw)) ∨
        counterLimit + 1 < text.length ∧ readDecimal text = .error (.trap .overflow))) := by
  have start : DecimalScan.start.At (.mantissa false false) := ⟨rfl, rfl, rfl⟩
  have decimal : (Phase.mantissa false false).accepts (splitSign text).2 = true ↔ IsDecimal text := by
    rw [← Phase.accepts_opening, Phase.accepts_opening_iff]
  rw [readDecimal_eq]
  rcases start.run text (splitSign text).2 with
    trapped | ⟨accepted, last, read, complete⟩ | ⟨refused, ⟨flaw, read⟩ | ⟨last, read, incomplete⟩⟩
  · have long : counterLimit + 1 < text.length := by
      obtain ⟨sign, -, written⟩ := exists_sign text
      obtain ⟨whole, fraction, tail, body, -, -, long⟩ :=
        DecimalScan.exists_whole rfl rfl rfl trapped
      rw [written, body]
      simp only [List.length_append, List.length_cons]
      omega
    rw [trapped]
    by_cases isDecimal : IsDecimal text
    · exact .inl ⟨isDecimal, .inr rfl⟩
    · exact .inr ⟨isDecimal, .inr ⟨long, rfl⟩⟩
  · rw [read]
    exact .inl ⟨decimal.mp accepted, complete.finish text _⟩
  · rw [read]
    exact .inr ⟨fun isDecimal => by simp [decimal.mpr isDecimal] at refused, .inl ⟨flaw, rfl⟩⟩
  · rw [read]
    exact .inr ⟨fun isDecimal => by simp [decimal.mpr isDecimal] at refused,
      .inl (DecimalScan.finish_of_not_complete incomplete text _)⟩

section Traps

variable {text sign whole rest : List Char}

/-- What follows the point is scanned without a place counted yet. -/
theorem readDecimal_point (signed : IsSign sign) (read : IsDigits whole)
    (written : text = sign ++ (whole ++ '.' :: rest)) :
    ∃ scan : DecimalScan, scan.exponent = none ∧ scan.pointSeen = true ∧ scan.places = 0 ∧
      scan.digits = whole.length ∧
      readDecimal text =
        scan.run text rest >>= fun last => last.finish text (decide (sign = ['-'])) := by
  obtain ⟨scan, opened, seen, places, counted, scanned⟩ :=
    DecimalScan.run_point text read rest
  have unsigned := read.unsigned ('.' :: rest) (by simp)
  refine ⟨scan, opened, seen, places, counted, ?_⟩
  rw [readDecimal_eq, written, splitSign_append signed unsigned, ← written, scanned]
  cases scan.run text rest <;> rfl

theorem Uncountable.traps (uncountable : Uncountable text) :
    readDecimal text = .error (.trap .overflow) := by
  obtain ⟨sign, whole, fraction, rest, written, signed, readWhole, read, long⟩ := uncountable
  obtain ⟨scan, opened, seen, places, -, result⟩ := readDecimal_point signed readWhole written
  rw [result, DecimalScan.run_full opened seen (by omega) read (by omega)]
  rfl

theorem Unscalable.traps (unscalable : Unscalable text) :
    readDecimal text = .error (.trap .overflow) := by
  obtain ⟨sign, whole, fraction, mark, digits, written, signed, readWhole, read, some, marked,
    readPower, somePower, deep⟩ := unscalable
  by_cases long : counterLimit < fraction.length
  · exact Uncountable.traps ⟨sign, whole, fraction, _, written, signed, readWhole, read, long⟩
  obtain ⟨scan, opened, seen, places, counted, result⟩ := readDecimal_point signed readWhole written
  obtain ⟨behind, scanned, closed, -, counted', places'⟩ :=
    DecimalScan.run_digits text opened read (by omega)
  have minus : IsSign ['-'] := .inr (.inr rfl)
  obtain ⟨after, finished, negative, powers, magnitude⟩ :=
    DecimalScan.run_exponent text closed marked minus readPower
  have length := List.length_pos_of_ne_nil some
  have length' := List.length_pos_of_ne_nil somePower
  rw [if_pos seen] at places'
  rw [result, DecimalScan.run_append, scanned]
  change behind.run text (mark :: (['-'] ++ digits)) >>= _ = _
  rw [finished]
  refine (DecimalScan.finish_trap_iff ⟨?_, ?_⟩ text _).mpr ⟨⟨?_, ?_⟩, after, rfl, ?_, ?_⟩
  · change behind.places ≤ counterLimit
    omega
  · rintro power ⟨⟩
    omega
  · change 0 < behind.digits
    omega
  · rintro power ⟨⟩
    omega
  · simp [negative]
  · change counterLimit < after.magnitude + behind.places
    omega

/-- A scan that comes to a trap at its end has read a decimal that cannot be scaled. -/
theorem unscalable_of_finish_trap {body : List Char} {last : DecimalScan} {negative : Bool}
    (signed : IsSign sign) (scanned : DecimalScan.start.run text body = .ok last)
    (trapped : last.finish text negative = .error (.trap .overflow)) :
    Uncountable (sign ++ body) ∨ Unscalable (sign ++ body) := by
  obtain ⟨complete, -⟩ :=
    (DecimalScan.finish_trap_iff (DecimalScan.inRange_start.run scanned) text negative).mp trapped
  have start : DecimalScan.start.At (.mantissa false false) := ⟨rfl, rfl, rfl⟩
  have accepted : (Phase.mantissa false false).accepts body = true := by
    rcases start.run text body with
      trapped' | ⟨accepted, -⟩ | ⟨-, ⟨flaw, refused⟩ | ⟨other, same, incomplete⟩⟩
    · simp [scanned] at trapped'
    · exact accepted
    · simp [scanned] at refused
    · cases scanned.symm.trans same
      exact absurd complete incomplete
  obtain ⟨whole, fraction, ending, readWhole, read, ends, -, form⟩ :=
    Phase.completes_of_accepts accepted
  rcases form with rfl | ⟨-, rfl⟩
  · have all : IsDigits (whole ++ fraction) := List.forall_mem_append.mpr ⟨readWhole, read⟩
    exact absurd trapped (DecimalScan.finish_ne_trap all ends scanned)
  · by_cases long : counterLimit < fraction.length
    · exact .inl ⟨sign, whole, fraction, ending, by simp, signed, readWhole, read, long⟩
    · rw [List.append_assoc, List.cons_append] at scanned
      obtain ⟨some, mark, digits, rfl, marked, readPower, somePower, deep⟩ :=
        DecimalScan.exists_of_finish_trap readWhole read ends (not_lt.mp long) scanned trapped
      exact .inr ⟨sign, whole, fraction, mark, digits, by simp, signed, readWhole, read, some,
        marked, readPower, somePower, deep⟩

theorem readDecimal_trap_iff (text : List Char) :
    readDecimal text = .error (.trap .overflow) ↔ Uncountable text ∨ Unscalable text := by
  constructor
  · intro trapped
    obtain ⟨sign, signed, written⟩ := exists_sign text
    rw [readDecimal_eq] at trapped
    cases scanned : DecimalScan.start.run text (splitSign text).2 with
    | error reason =>
        rw [scanned] at trapped
        cases trapped
        obtain ⟨whole, fraction, tail, body, readWhole, read, long⟩ :=
          DecimalScan.exists_whole rfl rfl rfl scanned
        exact .inl ⟨sign, whole, fraction, tail, body ▸ written, signed, readWhole, read, long⟩
    | ok last =>
        rw [scanned] at trapped
        rw [written]
        exact unscalable_of_finish_trap signed scanned trapped
  · rintro (uncountable | unscalable)
    · exact uncountable.traps
    · exact unscalable.traps

end Traps

/-- Every text is read, refused as malformed, or comes to a trap, and what decides this stands in the
text: a decimal is read and what is none is refused, unless there are too many digits after the point
or the scale is the least integer. Up to that point the counters of a scan are in range. -/
theorem readDecimal_exact (text : List Char) :
    (readDecimal text = .error (.trap .overflow) ↔ Uncountable text ∨ Unscalable text) ∧
      ((∃ value, readDecimal text = .ok value) ↔
        IsDecimal text ∧ ¬ (Uncountable text ∨ Unscalable text)) ∧
      ((∃ flaw, readDecimal text = .error (malformed text flaw)) ↔
        ¬ IsDecimal text ∧ ¬ (Uncountable text ∨ Unscalable text)) ∧
      ∀ read scan, DecimalScan.start.run text read = .ok scan → scan.InRange := by
  have trap := readDecimal_trap_iff text
  refine ⟨trap, ?_, ?_, fun read scan scanned => DecimalScan.inRange_start.run scanned⟩
  all_goals
    rw [← trap]
    rcases readDecimal_cases text with ⟨decimal, ⟨value, result⟩ | result⟩ |
      ⟨decimal, ⟨flaw, result⟩ | ⟨-, result⟩⟩
    all_goals simp [result, decimal, malformed]

/-- The least exponent that goes with one place, and one at which the scan saturates. -/
theorem readDecimal_exact_least_exponent :
    (IsDecimal "0.1e-2147483646".toList ∧
      ¬ (Uncountable "0.1e-2147483646".toList ∨ Unscalable "0.1e-2147483646".toList)) ∧
      ∃ scan, DecimalScan.start.run [] "1e9999999999".toList = .ok scan ∧ scan.InRange := by
  obtain ⟨-, read, -, -⟩ := readDecimal_exact "0.1e-2147483646".toList
  obtain ⟨-, -, -, inRange⟩ := readDecimal_exact []
  have scanned : ∃ scan, DecimalScan.start.run [] "1e9999999999".toList = .ok scan := ⟨_, rfl⟩
  obtain ⟨scan, scanned⟩ := scanned
  exact ⟨read.mp ⟨_, rfl⟩, scan, scanned, inRange _ scan scanned⟩

/-- The next exponent comes to a trap, although the text is a decimal. -/
theorem readDecimal_traps_below_limit :
    IsDecimal "0.1e-2147483647".toList ∧
      readDecimal "0.1e-2147483647".toList = .error (.trap .overflow) := by
  constructor
  · decide
  · rfl

end RowStore.Text
