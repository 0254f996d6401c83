import Mathlib
import RowStore.Evidence
import RowStore.Proofs.Text.Decimal

/-! The scan of one field.

Feeding a field follows the automaton of decimals, so closing it calls the column non-numeric
exactly when the field is no decimal.
-/

namespace RowStore

namespace FieldScan

/-- A field of which as much has been fed as a phase says. -/
def At (scan : FieldScan) : Text.Phase → Prop
  | .opening => scan = empty
  | .mantissa digits point => scan.chars ≠ 0 ∧ scan.inExponent = false ∧ scan.afterMark = false ∧
      decide (0 < scan.mantissaDigits) = digits ∧ decide (0 < scan.points) = point ∧
      (digits = true → scan.dangling = false)
  | .mark => scan.chars ≠ 0 ∧ scan.inExponent = true ∧ scan.afterMark = true ∧
      0 < scan.mantissaDigits
  | .exponentSign => scan.chars ≠ 0 ∧ scan.inExponent = true ∧ scan.afterMark = false ∧
      scan.dangling = true ∧ 0 < scan.mantissaDigits
  | .exponent => scan.chars ≠ 0 ∧ scan.inExponent = true ∧ scan.afterMark = false ∧
      scan.dangling = false ∧ 0 < scan.mantissaDigits

end FieldScan

namespace Evidence

variable {evidence : Evidence} {phase : Text.Phase} {c : Char}

theorem classify_digit (digit : Text.isDigit c = true) :
    evidence.classify c = evidence.pushDigit (c.toNat - 48) := by
  simp only [Text.isDigit, Bool.and_eq_true, decide_eq_true_eq] at digit
  rw [classify, if_pos digit]

theorem classify_sign (sign : c = '+' ∨ c = '-') :
    evidence.classify c = evidence.pushSign (c = '-') := by
  rcases sign with rfl | rfl <;> rfl

theorem classify_point : evidence.classify '.' = evidence.pushPoint := rfl

theorem classify_mark (mark : c = 'e' ∨ c = 'E') : evidence.classify c = evidence.pushMark := by
  rcases mark with rfl | rfl <;> rfl

theorem classify_other (digit : Text.isDigit c = false) (sign : ¬ (c = '+' ∨ c = '-'))
    (point : c ≠ '.') (mark : ¬ (c = 'e' ∨ c = 'E')) :
    evidence.classify c = { evidence with nonNumeric := true } := by
  have notDigit : ¬ ('0' ≤ c ∧ c ≤ '9') := by
    simpa [Text.isDigit] using digit
  rw [classify, if_neg notDigit, if_neg sign, if_neg point, if_neg mark]

/-- What feeding a character gives where the automaton makes a move: the phase it moves to; and where
it makes none, a column that is not numeric. -/
def Follows (evidence after : Evidence) : (move : Option Text.Phase) → Prop
  | some next => after.nonNumeric = evidence.nonNumeric ∧ after.field.At next
  | .none => after.nonNumeric = true

theorem follows_digit (reached : evidence.field.At phase) (digit : Text.isDigit c = true) :
    Follows evidence (evidence.push c) (phase.step c) := by
  obtain ⟨plus, minus, point, small, large⟩ := Text.ne_of_isDigit digit
  rw [push, classify_digit digit]
  cases phase <;>
    simp_all [Text.Phase.step, Follows, pushDigit, FieldScan.At, FieldScan.digit, FieldScan.empty,
      FieldScan.afterMark, FieldScan.dangling]

theorem follows_sign (reached : evidence.field.At phase) (sign : c = '+' ∨ c = '-') :
    Follows evidence (evidence.push c) (phase.step c) := by
  have digit : Text.isDigit c = false := by rcases sign with rfl | rfl <;> rfl
  have notPoint : c ≠ '.' := by rcases sign with rfl | rfl <;> decide
  have notMark : ¬ (c = 'e' ∨ c = 'E') := by rcases sign with rfl | rfl <;> decide
  rw [push, classify_sign sign]
  cases phase <;>
    simp_all [Text.Phase.step, Follows, pushSign, FieldScan.At, FieldScan.empty,
      FieldScan.afterMark, FieldScan.dangling]

theorem follows_point (reached : evidence.field.At phase) :
    Follows evidence (evidence.push '.') (phase.step '.') := by
  rw [push, classify_point]
  rcases phase with _ | ⟨digits, _ | _⟩ | _ | _ | _ <;>
    simp_all [Text.Phase.step, Text.isDigit, Follows, pushPoint, FieldScan.At, FieldScan.empty,
      FieldScan.afterMark, FieldScan.dangling]

theorem follows_mark (reached : evidence.field.At phase) (mark : c = 'e' ∨ c = 'E') :
    Follows evidence (evidence.push c) (phase.step c) := by
  have digit : Text.isDigit c = false := by rcases mark with rfl | rfl <;> rfl
  have notSign : ¬ (c = '+' ∨ c = '-') := by rcases mark with rfl | rfl <;> decide
  have notPoint : c ≠ '.' := by rcases mark with rfl | rfl <;> decide
  rw [push, classify_mark mark]
  rcases phase with _ | ⟨_ | _, point⟩ | _ | _ | _ <;>
    simp_all [Text.Phase.step, Follows, pushMark, FieldScan.At, FieldScan.empty,
      FieldScan.afterMark, FieldScan.dangling, Nat.pos_iff_ne_zero]

theorem push_follows (reached : evidence.field.At phase) (c : Char) :
    Follows evidence (evidence.push c) (phase.step c) := by
  by_cases digit : Text.isDigit c = true
  · exact follows_digit reached digit
  by_cases sign : c = '+' ∨ c = '-'
  · exact follows_sign reached sign
  by_cases point : c = '.'
  · exact point ▸ follows_point reached
  by_cases mark : c = 'e' ∨ c = 'E'
  · exact follows_mark reached mark
  · have refused : phase.step c = .none := by
      cases phase <;> simp_all [Text.Phase.step]
    rw [refused, push, classify_other (by simpa using digit) sign point mark]
    rfl

theorem nonNumeric_push (flagged : evidence.nonNumeric = true) (c : Char) :
    (evidence.push c).nonNumeric = true := by
  simp only [push, classify, pushDigit, pushSign, pushPoint, pushMark]
  split_ifs <;> simp [flagged]

theorem nonNumeric_foldl_push (flagged : evidence.nonNumeric = true) (text : List Char) :
    (text.foldl push evidence).nonNumeric = true := by
  induction text generalizing evidence with
  | nil => exact flagged
  | cons c text ih => exact ih (nonNumeric_push flagged c)

theorem chars_foldl_push (evidence : Evidence) (text : List Char) :
    (text.foldl push evidence).field.chars = evidence.field.chars + text.length := by
  induction text generalizing evidence with
  | nil => rfl
  | cons c text ih =>
      have counted : (evidence.push c).field.chars = evidence.field.chars + 1 := by
        simp only [push, classify, pushDigit, pushSign, pushPoint, pushMark, FieldScan.digit]
        split_ifs <;> rfl
      rw [List.foldl_cons, ih, counted, List.length_cons]
      omega

theorem nonNumeric_settle_of_flagged (flagged : evidence.nonNumeric = true) (scan : FieldScan) :
    (evidence.settle scan).nonNumeric = true := by
  rw [settle]
  split_ifs <;> first | exact flagged | rfl

theorem nonNumeric_settle {scan : FieldScan} (reached : scan.At phase) (fed : scan.chars ≠ 0) :
    (evidence.settle scan).nonNumeric = (evidence.nonNumeric || !phase.isFinal) := by
  rw [settle, if_neg fed]
  rcases phase with _ | ⟨_ | _, point⟩ | _ | _ | _
  · exact absurd (reached ▸ rfl : scan.chars = 0) fed
  all_goals
    simp only [FieldScan.At] at reached
    split_ifs <;> simp_all [Text.Phase.isFinal, FieldScan.dangling, Nat.pos_iff_ne_zero]

/-- The evidence from which the open field is settled may be any, as far as it has the same flag. -/
theorem nonNumeric_settle_foldl {closed : Evidence} (reached : evidence.field.At phase)
    (text : List Char) (fed : (text.foldl push evidence).field.chars ≠ 0)
    (flag : closed.nonNumeric = (text.foldl push evidence).nonNumeric) :
    (closed.settle (text.foldl push evidence).field).nonNumeric =
      (evidence.nonNumeric || !phase.accepts text) := by
  induction text generalizing evidence phase with
  | nil =>
      rw [List.foldl_nil] at flag fed ⊢
      rw [nonNumeric_settle reached fed, flag]
      rfl
  | cons c text ih =>
      rw [List.foldl_cons] at flag fed ⊢
      have follows := push_follows reached c
      rw [Text.Phase.accepts]
      cases moved : phase.step c with
      | some next =>
          rw [moved] at follows
          obtain ⟨same, reached⟩ := follows
          rw [ih reached fed flag, same]
      | none =>
          rw [moved] at follows
          have flagged : closed.nonNumeric = true := flag.trans (nonNumeric_foldl_push follows text)
          rw [nonNumeric_settle_of_flagged flagged]
          simp

/-- A field with content is flagged exactly if it is no decimal. -/
theorem nonNumeric_endField (closed : evidence.field = .empty) {text : List Char}
    (some : text ≠ []) (width : Nat) :
    ((text.foldl push evidence).endField width).nonNumeric =
      (evidence.nonNumeric || !decide (Text.IsDecimal text)) := by
  have fed : (text.foldl push evidence).field.chars ≠ 0 := by
    have content : text.length ≠ 0 := by simpa using some
    rw [chars_foldl_push]
    omega
  have reached : evidence.field.At .opening := closed
  rw [endField, if_neg (by simp [fed])]
  refine (nonNumeric_settle_foldl reached text fed ?flag).trans ?verdict
  case flag => rfl
  case verdict =>
    congr 2
    rw [Bool.eq_iff_iff, Text.Phase.accepts_opening_iff, decide_eq_true_iff]

end Evidence

end RowStore
