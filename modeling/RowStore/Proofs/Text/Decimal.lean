import Mathlib
import RowStore.Text.Digits
import RowStore.Text.Numeral

/-! The grammar of decimals.

A decimal is an optional sign, digits with at most one point among them, and an optional exponent.
An automaton accepts exactly these texts, and reading a decimal follows it: what it does not accept
is refused as malformed, unless a counter traps first.
-/

namespace RowStore.Text

section Grammar

def IsSign (text : List Char) : Prop := text = [] ∨ text = ['+'] ∨ text = ['-']

def IsDigits (text : List Char) : Prop := ∀ c ∈ text, isDigit c = true

/-- At least one digit, and at most one point before, among or after the digits. -/
def IsMantissa (text : List Char) : Prop :=
  ∃ whole fraction, IsDigits whole ∧ IsDigits fraction ∧ whole ++ fraction ≠ [] ∧
    (text = whole ++ fraction ∨ text = whole ++ '.' :: fraction)

/-- Nothing, or a mark, an optional sign and at least one digit. -/
def IsExponent (text : List Char) : Prop :=
  text = [] ∨ ∃ mark sign digits, text = mark :: (sign ++ digits) ∧ (mark = 'e' ∨ mark = 'E') ∧
    IsSign sign ∧ IsDigits digits ∧ digits ≠ []

def IsDecimal (text : List Char) : Prop :=
  ∃ sign mantissa exponent, text = sign ++ mantissa ++ exponent ∧
    IsSign sign ∧ IsMantissa mantissa ∧ IsExponent exponent

/-- A sign is split from what does not begin with one. -/
theorem splitSign_append {sign text : List Char} (signed : IsSign sign)
    (unsigned : ∀ c ∈ text.head?, c ≠ '+' ∧ c ≠ '-') :
    splitSign (sign ++ text) = (decide (sign = ['-']), text) := by
  rcases signed with rfl | rfl | rfl
  · cases text with
    | nil => rfl
    | cons c rest =>
        obtain ⟨plus, minus⟩ := unsigned c rfl
        simp [splitSign, plus, minus]
  · rfl
  · rfl

theorem exists_sign (text : List Char) :
    ∃ sign, IsSign sign ∧ text = sign ++ (splitSign text).2 := by
  unfold splitSign
  split
  · exact ⟨['-'], .inr (.inr rfl), rfl⟩
  · exact ⟨['+'], .inr (.inl rfl), rfl⟩
  · exact ⟨[], .inl rfl, rfl⟩

theorem ne_of_isDigit {c : Char} (digit : isDigit c = true) :
    c ≠ '+' ∧ c ≠ '-' ∧ c ≠ '.' ∧ c ≠ 'e' ∧ c ≠ 'E' := by
  refine ⟨?_, ?_, ?_, ?_, ?_⟩ <;> rintro rfl <;> exact absurd digit (by decide)

/-- Digits begin with no sign, also where something else that is none follows them. -/
theorem IsDigits.unsigned {digits : List Char} (read : IsDigits digits) (rest : List Char)
    (unsigned : ∀ c ∈ rest.head?, c ≠ '+' ∧ c ≠ '-') :
    ∀ c ∈ (digits ++ rest).head?, c ≠ '+' ∧ c ≠ '-' := by
  cases digits with
  | nil => exact unsigned
  | cons digit digits =>
      rintro c ⟨⟩
      obtain ⟨plus, minus, -⟩ := ne_of_isDigit (read _ List.mem_cons_self)
      exact ⟨plus, minus⟩

theorem splitSign_digits {sign digits : List Char} (signed : IsSign sign) (read : IsDigits digits) :
    splitSign (sign ++ digits) = (decide (sign = ['-']), digits) := by
  have unsigned := read.unsigned [] (by simp)
  rw [List.append_nil] at unsigned
  exact splitSign_append signed unsigned

end Grammar

/-- How far a decimal has been read. In the mantissa it counts whether there were digits and whether
there was a point. -/
inductive Phase where
  | opening
  | mantissa (digits point : Bool)
  | mark
  | exponentSign
  | exponent
deriving Repr, DecidableEq

namespace Phase

/-- The phase after a character, unless no decimal goes on with it. -/
def step : Phase → Char → Option Phase
  | opening, c =>
      if isDigit c then some (mantissa true false)
      else if c = '+' ∨ c = '-' then some (mantissa false false)
      else if c = '.' then some (mantissa false true)
      else none
  | mantissa digits point, c =>
      if isDigit c then some (mantissa true point)
      else if c = '.' ∧ point = false then some (mantissa digits true)
      else if (c = 'e' ∨ c = 'E') ∧ digits = true then some mark
      else none
  | mark, c =>
      if isDigit c then some exponent
      else if c = '+' ∨ c = '-' then some exponentSign
      else none
  | exponentSign, c | exponent, c => if isDigit c then some exponent else none

/-- May a decimal end here? -/
def isFinal : Phase → Bool
  | mantissa digits _ => digits
  | exponent => true
  | _ => false

def accepts : Phase → List Char → Bool
  | phase, [] => phase.isFinal
  | phase, c :: rest =>
      match phase.step c with
      | some next => next.accepts rest
      | none => false

/-- The texts that complete a decimal from a phase on. -/
def Completes : Phase → List Char → Prop
  | opening, text => IsDecimal text
  | mantissa digits point, text =>
      ∃ whole fraction exponent, IsDigits whole ∧ IsDigits fraction ∧ IsExponent exponent ∧
        (digits = true ∨ whole ++ fraction ≠ []) ∧
        (text = whole ++ fraction ++ exponent ∨
          point = false ∧ text = whole ++ '.' :: fraction ++ exponent)
  | mark, text =>
      ∃ sign digits, text = sign ++ digits ∧ IsSign sign ∧ IsDigits digits ∧ digits ≠ []
  | exponentSign, text => IsDigits text ∧ text ≠ []
  | exponent, text => IsDigits text

theorem isDigits_cons {c : Char} {text : List Char} :
    IsDigits (c :: text) ↔ isDigit c = true ∧ IsDigits text := List.forall_mem_cons

theorem accepts_digits {digits : List Char} (read : IsDigits digits) (rest : List Char) :
    exponent.accepts (digits ++ rest) = exponent.accepts rest ∧ ∀ some point,
      (mantissa some point).accepts (digits ++ rest) =
        (mantissa (some || !digits.isEmpty) point).accepts rest := by
  induction digits with
  | nil => simp
  | cons c digits ih =>
      obtain ⟨digit, read⟩ := isDigits_cons.mp read
      obtain ⟨afterMark, beforeMark⟩ := ih read
      refine ⟨by simp [accepts, step, digit, afterMark], fun some point => ?_⟩
      simp [accepts, step, digit, beforeMark]

theorem accepts_exponentDigits {digits : List Char} (read : IsDigits digits) (some : digits ≠ []) :
    exponentSign.accepts digits = true ∧ mark.accepts digits = true := by
  obtain ⟨c, rest, rfl⟩ := List.exists_cons_of_ne_nil some
  obtain ⟨digit, read⟩ := isDigits_cons.mp read
  have tail := (accepts_digits read []).1
  rw [List.append_nil] at tail
  simp [accepts, step, digit, tail, isFinal]

theorem accepts_mark {sign digits : List Char} (signed : IsSign sign) (read : IsDigits digits)
    (some : digits ≠ []) : mark.accepts (sign ++ digits) = true := by
  obtain ⟨afterSign, unsigned⟩ := accepts_exponentDigits read some
  rcases signed with rfl | rfl | rfl
  · exact unsigned
  · simpa [accepts, step, isDigit] using afterSign
  · simpa [accepts, step, isDigit] using afterSign

theorem accepts_exponent {text : List Char} {point : Bool} (ends : IsExponent text) :
    (mantissa true point).accepts text = true := by
  rcases ends with rfl | ⟨c, sign, digits, rfl, marked, signed, read, some⟩
  · rfl
  · have rest := accepts_mark signed read some
    rcases marked with rfl | rfl <;> simpa [accepts, step, isDigit] using rest

theorem accepts_mantissa (digits point : Bool) {whole fraction ends : List Char}
    (readWhole : IsDigits whole) (readFraction : IsDigits fraction) (ending : IsExponent ends)
    (some : digits = true ∨ whole ++ fraction ≠ []) :
    (mantissa digits point).accepts (whole ++ fraction ++ ends) = true ∧
      (mantissa digits false).accepts (whole ++ '.' :: fraction ++ ends) = true := by
  have enough : (digits || !whole.isEmpty || !fraction.isEmpty) = true := by
    rcases some with rfl | some
    · simp
    · cases whole with
      | cons => simp
      | nil => simpa using .inr some
  constructor
  · rw [List.append_assoc, (accepts_digits readWhole _).2, (accepts_digits readFraction _).2, enough]
    exact accepts_exponent ending
  · rw [List.append_assoc, (accepts_digits readWhole _).2, List.cons_append]
    have point : (mantissa (digits || !whole.isEmpty) false).step '.' =
        Option.some (mantissa (digits || !whole.isEmpty) true) := by simp [step, isDigit]
    rw [accepts, point]
    simp only
    rw [(accepts_digits readFraction _).2, enough]
    exact accepts_exponent ending

theorem step_opening (c : Char) :
    opening.step c =
      if c = '+' ∨ c = '-' then some (mantissa false false) else (mantissa false false).step c := by
  by_cases signed : c = '+' ∨ c = '-'
  · rcases signed with rfl | rfl <;> rfl
  · simp [step, signed]

theorem accepts_opening (text : List Char) :
    opening.accepts text = (mantissa false false).accepts (splitSign text).2 := by
  cases text with
  | nil => rfl
  | cons c rest =>
      rw [accepts, step_opening]
      by_cases signed : c = '+' ∨ c = '-'
      · rw [if_pos signed]
        rcases signed with rfl | rfl <;> rfl
      · have unsigned : splitSign (c :: rest) = (false, c :: rest) :=
          splitSign_append (.inl rfl) (by simpa using signed)
        rw [if_neg signed, unsigned, accepts]

theorem accepts_unsigned {text : List Char} (accepted : (mantissa false false).accepts text = true) :
    opening.accepts text = true := by
  cases text with
  | nil => exact accepted
  | cons c rest =>
      by_cases signed : c = '+' ∨ c = '-'
      · rcases signed with rfl | rfl <;> simp [accepts, step, isDigit] at accepted
      · rwa [accepts, step_opening, if_neg signed]

theorem accepts_decimal {text : List Char} (decimal : IsDecimal text) :
    opening.accepts text = true := by
  obtain ⟨sign, mantissa, ends, rfl, signed, ⟨whole, fraction, readWhole, readFraction, some, form⟩,
    ending⟩ := decimal
  have accepted : (Phase.mantissa false false).accepts (mantissa ++ ends) = true := by
    have both := accepts_mantissa false false readWhole readFraction ending (.inr some)
    rcases form with rfl | rfl
    · exact both.1
    · exact both.2
  have unsigned := accepts_unsigned accepted
  rcases signed with rfl | rfl | rfl
  · exact unsigned
  · simpa [accepts, step, isDigit] using accepted
  · simpa [accepts, step, isDigit] using accepted

theorem isDecimal_of_completes {sign text : List Char} (signed : IsSign sign)
    (completes : (mantissa false false).Completes text) : IsDecimal (sign ++ text) := by
  obtain ⟨whole, fraction, ends, readWhole, readFraction, ending, some, form⟩ := completes
  have some : whole ++ fraction ≠ [] := by simpa using some
  rcases form with rfl | ⟨_, rfl⟩
  · exact ⟨sign, whole ++ fraction, ends, by simp, signed,
      ⟨whole, fraction, readWhole, readFraction, some, .inl rfl⟩, ending⟩
  · exact ⟨sign, whole ++ '.' :: fraction, ends, by simp, signed,
      ⟨whole, fraction, readWhole, readFraction, some, .inr rfl⟩, ending⟩

theorem completes_mantissa_cons {digits point : Bool} {next : Phase} {c : Char} {rest : List Char}
    (moves : (mantissa digits point).step c = some next) (completes : next.Completes rest) :
    (mantissa digits point).Completes (c :: rest) := by
  simp only [step] at moves
  split at moves
  · rename_i digit
    cases moves
    obtain ⟨whole, fraction, ends, readWhole, readFraction, ending, _, form⟩ := completes
    refine ⟨c :: whole, fraction, ends, isDigits_cons.mpr ⟨digit, readWhole⟩, readFraction, ending,
      .inr (by simp), ?_⟩
    rcases form with rfl | ⟨fresh, rfl⟩
    · exact .inl rfl
    · exact .inr ⟨fresh, rfl⟩
  · split at moves
    · rename_i found
      cases moves
      obtain ⟨rfl, rfl⟩ := found
      obtain ⟨whole, fraction, ends, readWhole, readFraction, ending, some, form⟩ := completes
      have text : rest = whole ++ fraction ++ ends := by simpa using form
      refine ⟨[], whole ++ fraction, ends, List.forall_mem_nil _,
        List.forall_mem_append.mpr ⟨readWhole, readFraction⟩, ending, by simpa using some, .inr ⟨rfl, ?_⟩⟩
      rw [text]
      rfl
    · split at moves
      · rename_i found
        cases moves
        obtain ⟨sign, ends, rfl, signed, read, some⟩ := completes
        refine ⟨[], [], c :: (sign ++ ends), List.forall_mem_nil _, List.forall_mem_nil _,
          .inr ⟨c, sign, ends, rfl, found.1, signed, read, some⟩, .inl found.2, .inl rfl⟩
      · contradiction

theorem completes_mark_cons {next : Phase} {c : Char} {rest : List Char}
    (moves : mark.step c = some next) (completes : next.Completes rest) :
    mark.Completes (c :: rest) := by
  simp only [step] at moves
  split at moves
  · rename_i digit
    cases moves
    exact ⟨[], c :: rest, rfl, .inl rfl, isDigits_cons.mpr ⟨digit, completes⟩, by simp⟩
  · split at moves
    · rename_i sign
      cases moves
      refine ⟨[c], rest, rfl, .inr ?_, completes.1, completes.2⟩
      rcases sign with rfl | rfl <;> simp
    · contradiction

theorem completes_cons {phase next : Phase} {c : Char} {rest : List Char}
    (moves : phase.step c = some next) (completes : next.Completes rest) :
    phase.Completes (c :: rest) := by
  cases phase with
  | opening =>
      rw [step_opening] at moves
      split at moves
      · rename_i sign
        cases moves
        refine isDecimal_of_completes (show IsSign [c] from .inr ?_) completes
        rcases sign with rfl | rfl <;> simp
      · exact isDecimal_of_completes (.inl rfl) (completes_mantissa_cons moves completes)
  | mantissa digits point => exact completes_mantissa_cons moves completes
  | mark => exact completes_mark_cons moves completes
  | exponentSign =>
      simp only [step] at moves
      split at moves
      · rename_i digit
        cases moves
        exact ⟨isDigits_cons.mpr ⟨digit, completes⟩, by simp⟩
      · contradiction
  | exponent =>
      simp only [step] at moves
      split at moves
      · rename_i digit
        cases moves
        exact isDigits_cons.mpr ⟨digit, completes⟩
      · contradiction

theorem completes_of_accepts {phase : Phase} {text : List Char}
    (accepted : phase.accepts text = true) : phase.Completes text := by
  induction text generalizing phase with
  | nil =>
      cases phase with
      | opening | mark | exponentSign => contradiction
      | exponent => exact List.forall_mem_nil _
      | mantissa digits point =>
          exact ⟨[], [], [], List.forall_mem_nil _, List.forall_mem_nil _, .inl rfl, .inl accepted,
            .inl rfl⟩
  | cons c rest ih =>
      rw [accepts] at accepted
      split at accepted
      · rename_i next moves
        exact completes_cons moves (ih accepted)
      · contradiction

/-- The automaton accepts the decimals. -/
theorem accepts_opening_iff {text : List Char} : opening.accepts text = true ↔ IsDecimal text :=
  ⟨completes_of_accepts, accepts_decimal⟩

end Phase

instance (text : List Char) : Decidable (IsDecimal text) :=
  decidable_of_iff (Phase.opening.accepts text = true) Phase.accepts_opening_iff

theorem digit?_eq (c : Char) : digit? c = if isDigit c then some (c.toNat - 48) else none := by
  simp [digit?, isDigit]

namespace DecimalScan

/-- A scan that has come as far as a phase says. -/
def At (scan : DecimalScan) : Phase → Prop
  | .opening => False
  | .mantissa digits point =>
      scan.exponent = none ∧ decide (0 < scan.digits) = digits ∧ scan.pointSeen = point
  | .mark => 0 < scan.digits ∧ ∃ exponent, scan.exponent = some exponent ∧
      exponent.digits = 0 ∧ exponent.fresh = true
  | .exponentSign => 0 < scan.digits ∧ ∃ exponent, scan.exponent = some exponent ∧
      exponent.digits = 0 ∧ exponent.fresh = false
  | .exponent => 0 < scan.digits ∧ ∃ exponent, scan.exponent = some exponent ∧
      0 < exponent.digits ∧ exponent.fresh = false

/-- What has been scanned is a decimal. -/
def Complete (scan : DecimalScan) : Prop :=
  0 < scan.digits ∧ ∀ exponent ∈ scan.exponent, 0 < exponent.digits

/-- An exponent without a mantissa before it is only found out at the end. -/
def Doomed (scan : DecimalScan) : Prop := scan.digits = 0 ∧ scan.exponent.isSome = true

variable {scan : DecimalScan} {phase : Phase}

theorem At.complete_iff (reached : scan.At phase) : scan.Complete ↔ phase.isFinal = true := by
  cases phase with
  | opening => exact reached.elim
  | mantissa digits point =>
      obtain ⟨none, rfl, _⟩ := reached
      simp [Complete, none, Phase.isFinal]
  | mark =>
      obtain ⟨_, exponent, found, empty, _⟩ := reached
      simp [Complete, found, empty, Phase.isFinal]
  | exponentSign =>
      obtain ⟨_, exponent, found, empty, _⟩ := reached
      simp [Complete, found, empty, Phase.isFinal]
  | exponent =>
      obtain ⟨digits, exponent, found, some, _⟩ := reached
      simp [Complete, found, digits, some, Phase.isFinal]

/-- What reading a character may give where the automaton makes a move: the phase it moves to, or a
trap on a count; and where it makes none, a refusal or a doomed scan. -/
def Follows (text : List Char) (result : Except Error DecimalScan) : (move : Option Phase) → Prop
  | some next => (∃ after, result = .ok after ∧ after.At next) ∨ result = .error (.trap .overflow)
  | none => (∃ flaw, result = .error (malformed text flaw)) ∨ ∃ after, result = .ok after ∧ after.Doomed

theorem At.follows_mantissa {digits point : Bool} (reached : scan.At (.mantissa digits point))
    (text : List Char) (c : Char) :
    Follows text (scan.step text c) ((Phase.mantissa digits point).step c) := by
  obtain ⟨opened, counted, seen⟩ := reached
  have taken : scan.step text c = scan.stepMantissa text c := by rw [DecimalScan.step, opened]
  rw [taken, stepMantissa, digit?_eq, Phase.step]
  by_cases digit : isDigit c = true
  · simp only [digit, if_true]
    split
    · exact .inr rfl
    · exact .inl ⟨_, rfl, opened, by simp, seen⟩
  · simp only [digit, Bool.false_eq_true, if_false]
    by_cases isPoint : c = '.'
    · cases point with
      | true => simp [isPoint, seen, Follows]
      | false => simpa [isPoint, seen, Follows, At, opened] using counted
    · by_cases isMark : c = 'e' ∨ c = 'E'
      · cases digits with
        | true => simpa [isPoint, isMark, Follows, At] using counted
        | false => simpa [isPoint, isMark, Follows, Doomed] using counted
      · simp [isPoint, isMark, Follows]

theorem step_exponent {exponent : ExponentScan} (found : scan.exponent = some exponent)
    (text : List Char) (c : Char) :
    (isDigit c = true ∧ ∃ next, scan.step text c = .ok { scan with exponent := some next } ∧
        0 < next.digits ∧ next.fresh = false) ∨
      (isDigit c = false ∧ (c = '+' ∨ c = '-') ∧ exponent.fresh = true ∧
        scan.step text c = .ok { scan with
          exponent := some { exponent with negative := c = '-', fresh := false } }) ∨
      (isDigit c = false ∧ ¬ ((c = '+' ∨ c = '-') ∧ exponent.fresh = true) ∧
        ∃ flaw, scan.step text c = .error (malformed text flaw)) := by
  have taken : scan.step text c =
      (exponent.step text c).map fun next => { scan with exponent := some next } := by
    rw [DecimalScan.step, found]
  rw [taken, ExponentScan.step, digit?_eq]
  cases digit : isDigit c with
  | true => exact .inl ⟨rfl, _, rfl, by simp, rfl⟩
  | false =>
      by_cases signed : (c = '+' ∨ c = '-') ∧ exponent.fresh = true
      · refine .inr (.inl ⟨rfl, signed.1, signed.2, ?_⟩)
        simp [signed, Except.map]
      · refine .inr (.inr ⟨rfl, signed, ?_⟩)
        simp only [Bool.false_eq_true, if_false, signed]
        split
        · exact ⟨_, rfl⟩
        · split <;> exact ⟨_, rfl⟩

theorem At.follows (reached : scan.At phase) (text : List Char) (c : Char) :
    Follows text (scan.step text c) (phase.step c) := by
  cases phase with
  | opening => exact reached.elim
  | mantissa digits point => exact reached.follows_mantissa text c
  | mark =>
      obtain ⟨digits, exponent, found, empty, fresh⟩ := reached
      rcases step_exponent found text c with
        ⟨digit, next, result, some, used⟩ | ⟨digit, signed, _, result⟩ | ⟨digit, other, refused⟩
      · rw [result, Phase.step, if_pos digit]
        exact .inl ⟨_, rfl, digits, next, rfl, some, used⟩
      · rw [result, Phase.step, digit, if_neg Bool.false_ne_true, if_pos signed]
        exact .inl ⟨_, rfl, digits, _, rfl, empty, rfl⟩
      · have unsigned : ¬ (c = '+' ∨ c = '-') := fun signed => other ⟨signed, fresh⟩
        rw [Phase.step, digit, if_neg Bool.false_ne_true, if_neg unsigned]
        exact .inl refused
  | exponentSign =>
      obtain ⟨digits, exponent, found, empty, used⟩ := reached
      rcases step_exponent found text c with
        ⟨digit, next, result, some, nextUsed⟩ | ⟨_, _, fresh, _⟩ | ⟨digit, _, refused⟩
      · rw [result, Phase.step, if_pos digit]
        exact .inl ⟨_, rfl, digits, next, rfl, some, nextUsed⟩
      · rw [used] at fresh
        contradiction
      · rw [Phase.step, digit, if_neg Bool.false_ne_true]
        exact .inl refused
  | exponent =>
      obtain ⟨digits, exponent, found, _, used⟩ := reached
      rcases step_exponent found text c with
        ⟨digit, next, result, some, nextUsed⟩ | ⟨_, _, fresh, _⟩ | ⟨digit, _, refused⟩
      · rw [result, Phase.step, if_pos digit]
        exact .inl ⟨_, rfl, digits, next, rfl, some, nextUsed⟩
      · rw [used] at fresh
        contradiction
      · rw [Phase.step, digit, if_neg Bool.false_ne_true]
        exact .inl refused

/-- A doomed scan ends in a refusal, however it goes on. -/
theorem Doomed.run (doomed : scan.Doomed) (text rest : List Char) :
    (∃ flaw, scan.run text rest = .error (malformed text flaw)) ∨
      ∃ last, scan.run text rest = .ok last ∧ last.digits = 0 := by
  induction rest generalizing scan with
  | nil => exact .inr ⟨scan, rfl, doomed.1⟩
  | cons c rest ih =>
      obtain ⟨empty, started⟩ := doomed
      obtain ⟨exponent, found⟩ := Option.isSome_iff_exists.mp started
      rw [DecimalScan.run]
      rcases step_exponent found text c with
        ⟨_, next, result, _⟩ | ⟨_, _, _, result⟩ | ⟨_, _, flaw, refused⟩
      · rw [result]
        exact ih ⟨empty, rfl⟩
      · rw [result]
        exact ih ⟨empty, rfl⟩
      · rw [refused]
        exact .inl ⟨flaw, rfl⟩

/-- Reading to the end accepts what the automaton accepts, unless a count traps. -/
theorem At.run (reached : scan.At phase) (text rest : List Char) :
    scan.run text rest = .error (.trap .overflow) ∨
      (phase.accepts rest = true ∧ ∃ last, scan.run text rest = .ok last ∧ last.Complete) ∨
      (phase.accepts rest = false ∧ ((∃ flaw, scan.run text rest = .error (malformed text flaw)) ∨
        ∃ last, scan.run text rest = .ok last ∧ ¬ last.Complete)) := by
  induction rest generalizing scan phase with
  | nil =>
      cases final : phase.isFinal with
      | true => exact .inr (.inl ⟨final, scan, rfl, reached.complete_iff.mpr final⟩)
      | false =>
          have incomplete : ¬ scan.Complete := by simp [reached.complete_iff, final]
          exact .inr (.inr ⟨final, .inr ⟨scan, rfl, incomplete⟩⟩)
  | cons c rest ih =>
      have follows := reached.follows text c
      rw [Phase.accepts, DecimalScan.run]
      cases moves : phase.step c with
      | some next =>
          rw [moves] at follows
          rcases follows with ⟨after, result, stands⟩ | trapped
          · rw [result]
            exact ih stands
          · rw [trapped]
            exact .inl rfl
      | none =>
          rw [moves] at follows
          refine .inr (.inr ⟨rfl, ?_⟩)
          rcases follows with ⟨flaw, refused⟩ | ⟨after, result, doomed⟩
          · rw [refused]
            exact .inl ⟨flaw, rfl⟩
          · rw [result]
            refine (doomed.run text rest).imp id ?_
            rintro ⟨last, read, empty⟩
            exact ⟨last, read, fun complete => by simp [Complete, empty] at complete⟩

/-- What is left to do after the last character: check the counts and scale. -/
def finish (text : List Char) (negative : Bool) (scan : DecimalScan) : Except Error Double :=
  if scan.digits = 0 then .error (malformed text .noDigits)
  else do
    let scale ← scan.scale text
    let magnitude ← scaled scan.mantissa scale
    .ok (if negative then magnitude.neg else magnitude)

theorem Complete.finish (complete : scan.Complete) (text : List Char) (negative : Bool) :
    (∃ value, scan.finish text negative = .ok value) ∨
      scan.finish text negative = .error (.trap .overflow) := by
  obtain ⟨some, digits⟩ := complete
  have scaling : ∃ scale, scan.scale text = .ok scale := by
    rw [DecimalScan.scale]
    cases found : scan.exponent with
    | none => exact ⟨_, rfl⟩
    | some exponent =>
        have positive := digits exponent found
        simp only [if_neg (Nat.ne_of_gt positive)]
        exact ⟨_, rfl⟩
  obtain ⟨scale, scaling⟩ := scaling
  rw [DecimalScan.finish, if_neg (Nat.ne_of_gt some), scaling]
  simp only [bind, Except.bind, scaled]
  by_cases least : scale = -counterLimit - 1
  · exact .inr (by simp [least])
  · by_cases below : scale < 0
    · exact .inl ⟨_, by simp [least, below]; rfl⟩
    · exact .inl ⟨_, by simp [least, below]; rfl⟩

theorem finish_of_not_complete (incomplete : ¬ scan.Complete) (text : List Char)
    (negative : Bool) : ∃ flaw, scan.finish text negative = .error (malformed text flaw) := by
  rw [DecimalScan.finish]
  split
  · exact ⟨_, rfl⟩
  · rename_i some
    cases found : scan.exponent with
    | none => exact absurd ⟨Nat.pos_of_ne_zero some, by simp [found]⟩ incomplete
    | some exponent =>
        have empty : exponent.digits = 0 := by
          by_contra positive
          exact incomplete ⟨Nat.pos_of_ne_zero some, by simpa [found] using Nat.pos_of_ne_zero positive⟩
        simp only [DecimalScan.scale, found, empty, if_true]
        exact ⟨_, rfl⟩

end DecimalScan

theorem readDecimal_eq (text : List Char) :
    readDecimal text =
      match DecimalScan.start.run text (splitSign text).2 with
      | .error reason => .error reason
      | .ok last => last.finish text (splitSign text).1 := rfl

end RowStore.Text
