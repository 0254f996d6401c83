import Mathlib
import RowStore.Proofs.Text.Integer

/-! Numbers of fixed width in text.

A number that is padded with zeros to a width is read back from its digits, where the reader stops at
that width or at a character that is no digit.
-/

namespace RowStore.Text

theorem isDigits_toDigits (number : Nat) : IsDigits (Nat.toDigits 10 number) := by
  intro c mem
  have digit := Nat.isDigit_of_mem_toDigits (by decide) (by decide) mem
  simpa [Char.isDigit, isDigit, Char.le_def] using digit

theorem digitsValue_toDigits (number : Nat) : digitsValue (Nat.toDigits 10 number) = number := by
  have read := Nat.ofDigitChars_toDigits (n := number) (show 1 < 10 by decide) (Nat.le_refl 10)
  rwa [Nat.ofDigitChars_eq_foldl] at read

theorem digitsValue_lt {digits : List Char} (read : IsDigits digits) :
    digitsValue digits < 10 ^ digits.length := by
  have grows (value : Nat) (digits : List Char) (read : IsDigits digits) :
      digits.foldl (fun value c => 10 * value + (c.toNat - 48)) value <
        (value + 1) * 10 ^ digits.length := by
    induction digits generalizing value with
    | nil => simp
    | cons c digits ih =>
        obtain ⟨digit, read⟩ := Phase.isDigits_cons.mp read
        have small : c.toNat ≤ 57 := by
          simp only [isDigit, Bool.and_eq_true, decide_eq_true_eq, Char.le_def,
            UInt32.le_iff_toNat_le] at digit
          exact digit.2
        have next := ih (10 * value + (c.toNat - 48)) read
        rw [List.foldl_cons, List.length_cons, Nat.pow_succ, Nat.mul_comm (10 ^ _), ← Nat.mul_assoc]
        exact next.trans_le (Nat.mul_le_mul_right _ (by omega))
  rw [digitsValue]
  simpa using grows 0 digits read

section Padding

variable {width number : Nat}

theorem isDigits_zeroPadded (width number : Nat) : IsDigits (zeroPadded width number) := by
  rw [zeroPadded, IsDigits, List.forall_mem_append]
  refine ⟨fun c mem => ?_, isDigits_toDigits number⟩
  rw [List.eq_of_mem_replicate mem]
  decide

theorem digitsValue_zeroPadded (width number : Nat) :
    digitsValue (zeroPadded width number) = number := by
  have zeros (count : Nat) : digitsValue (List.replicate count '0') = 0 := by
    induction count with
    | zero => rfl
    | succ count ih => exact ih
  rw [zeroPadded, digitsValue, List.foldl_append, ← digitsValue, zeros]
  exact digitsValue_toDigits number

theorem zeroPadded_ne_nil (width number : Nat) : zeroPadded width number ≠ [] := by
  rw [zeroPadded]
  exact List.append_ne_nil_of_right_ne_nil _ Nat.toDigits_ne_nil

theorem length_zeroPadded (positive : 0 < width) (small : number < 10 ^ width) :
    (zeroPadded width number).length = width := by
  have short := Nat.toDigits_length 10 number width positive small
  rw [zeroPadded, List.length_append, List.length_replicate, Nat.sub_add_cancel short]

end Padding

section Reading

variable {least most : Nat} {digits rest : List Char}

/-- Digits are read up to the greatest width, or up to a character that is no digit. -/
theorem takeNumber?_digits (read : IsDigits digits) (enough : least ≤ digits.length)
    (room : digits.length ≤ most)
    (stop : digits.length = most ∨ ∃ c after, rest = c :: after ∧ isDigit c = false) :
    takeNumber? least most (digits ++ rest) = some (digitsValue digits, rest) := by
  have found : ((digits ++ rest).take most).takeWhile isDigit = digits := by
    rw [List.take_append, List.take_of_length_le room, List.takeWhile_append_of_pos read]
    rcases stop with exact | ⟨c, after, rfl, other⟩
    · rw [exact, Nat.sub_self, List.take_zero, List.takeWhile_nil, List.append_nil]
    · cases most - digits.length with
      | zero => rw [List.take_zero, List.takeWhile_nil, List.append_nil]
      | succ left => rw [List.take_succ_cons, List.takeWhile_cons_of_neg (by simp [other]),
          List.append_nil]
  simp only [takeNumber?, found, if_neg (not_lt.mpr enough), List.drop_left]

theorem takeNumber?_zeroPadded {width number : Nat} (positive : 0 < width)
    (small : number < 10 ^ width) (enough : least ≤ width) (rest : List Char) :
    takeNumber? least width (zeroPadded width number ++ rest) = some (number, rest) := by
  have length := length_zeroPadded positive small
  rw [takeNumber?_digits (isDigits_zeroPadded width number) (by rwa [length]) length.le (.inl length),
    digitsValue_zeroPadded]

theorem lt_of_takeNumber? {number : Nat} {text : List Char}
    (found : takeNumber? least most text = some (number, rest)) : number < 10 ^ most := by
  simp only [takeNumber?, Option.ite_none_left_eq_some, Option.some.injEq, Prod.mk.injEq] at found
  obtain ⟨-, rfl, -⟩ := found
  have read : IsDigits ((text.take most).takeWhile isDigit) := fun c mem => List.mem_takeWhile_imp mem
  refine (digitsValue_lt read).trans_le (Nat.pow_le_pow_right (by decide) ?_)
  exact (List.takeWhile_prefix _).length_le.trans (List.length_take_le _ _)

/-- A number is not read where there is no digit. -/
theorem takeNumber?_eq_none {c : Char} (other : isDigit c = false) (some : 0 < least) :
    takeNumber? least most (c :: rest) = none := by
  have found : ((c :: rest).take most).takeWhile isDigit = [] := by
    cases most with
    | zero => rfl
    | succ most => rw [List.take_succ_cons, List.takeWhile_cons_of_neg (by simp [other])]
  simp only [takeNumber?, found, List.length_nil, if_pos some]

theorem takeChar?_cons (c : Char) (rest : List Char) : takeChar? c (c :: rest) = some rest :=
  if_pos rfl

theorem trimLeft_cons {c : Char} (shown : isBlank c = false) (rest : List Char) :
    trimLeft (c :: rest) = c :: rest :=
  List.dropWhile_cons_of_neg (by simp [shown])

theorem trimLeft_digits (read : IsDigits digits) (some : digits ≠ []) :
    trimLeft (digits ++ rest) = digits ++ rest := by
  obtain ⟨c, others, rfl⟩ := List.exists_cons_of_ne_nil some
  exact trimLeft_cons (isBlank_of_isDigit (read c List.mem_cons_self)) _

end Reading

end RowStore.Text
