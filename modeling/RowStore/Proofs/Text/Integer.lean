import Mathlib
import RowStore.Proofs.Text.Decimal
import RowStore.Proofs.Text.Trimming
import RowStore.Value.Parsing

/-! Integers in text.

The number that a sign and digits write is an integer of any size. Reading accumulates it modulo the
size of a 64-bit word, and the element of a type that comes out has the residue of the number itself.
-/

namespace RowStore.Text

/-- The integer that an optional sign and digits write. -/
def integerValue (text : List Char) : Int :=
  let (negative, digits) := splitSign text
  if negative then -(digitsValue digits : Int) else digitsValue digits

theorem accumulate_digits {digits : List Char} (read : IsDigits digits) (text : List Char)
    (value : Nat) :
    accumulate text (Int64.ofInt value) digits =
      .ok (Int64.ofInt (digits.foldl (fun value c => 10 * value + (c.toNat - 48)) value : Nat)) := by
  induction digits generalizing value with
  | nil => rfl
  | cons c digits ih =>
      obtain ⟨digit, read⟩ := Phase.isDigits_cons.mp read
      have next : Int64.ofInt value * 10 + Int64.ofNat (c.toNat - 48) =
          Int64.ofInt (10 * value + (c.toNat - 48) : Nat) := by
        rw [Nat.cast_add, Nat.cast_mul, Int64.ofInt_add, Int64.ofInt_mul, Int64.ofInt_eq_ofNat,
          Int64.ofInt_eq_ofNat, Int64.ofInt_eq_ofNat, Int64.mul_comm]
        rfl
      rw [accumulate, digit?_eq, if_pos digit]
      simp only [next, List.foldl_cons]
      exact ih read _

theorem readInteger_digits {text : List Char} (read : IsDigits (splitSign text).2)
    (some : (splitSign text).2 ≠ []) :
    readInteger text = .ok (Int64.ofInt (integerValue text)) := by
  have accumulated := accumulate_digits read text 0
  have zero : Int64.ofInt ((0 : Nat) : Int) = 0 := rfl
  rw [zero] at accumulated
  simp only [readInteger, List.isEmpty_iff, some, if_false, accumulated, Except.map, integerValue,
    digitsValue]
  split
  · rw [Int64.ofInt_neg]
  · rfl

theorem isBlank_of_isDigit {c : Char} (digit : isDigit c = true) : isBlank c = false := by
  simp only [isDigit, Bool.and_eq_true, decide_eq_true_eq, Char.le_def, UInt32.le_iff_toNat_le] at digit
  have lower : 48 ≤ c.toNat := digit.1
  have upper : c.toNat ≤ 57 := digit.2
  simp only [isBlank, Bool.or_eq_false_iff, Bool.and_eq_false_iff, decide_eq_false_iff_not]
  omega

/-- White space around a text in which there is none is trimmed. -/
theorem trim_surrounded (before inner after : List Char) (front : ∀ c ∈ before, isBlank c = true)
    (shown : ∀ c ∈ inner, isBlank c = false) (back : ∀ c ∈ after, isBlank c = true) :
    trim (before ++ inner ++ after) = inner :=
  (IsCore.eq ⟨⟨before, after, rfl, front, back⟩,
    fun c first => shown c (List.mem_of_mem_head? first),
    fun c last => shown c (List.mem_of_getLast? last)⟩).symm

theorem trim_eq_self {text : List Char} (shown : ∀ c ∈ text, isBlank c = false) :
    trim text = text := by
  have trimmed := trim_surrounded [] text [] (by simp) shown (by simp)
  rwa [List.nil_append, List.append_nil] at trimmed

/-- There is no white space in an integer. -/
theorem isBlank_of_mem_integer {text : List Char} (read : IsDigits (splitSign text).2) :
    ∀ c ∈ text, isBlank c = false := by
  have digits : ∀ c ∈ (splitSign text).2, isBlank c = false :=
    fun c mem => isBlank_of_isDigit (read c mem)
  unfold splitSign at digits
  split at digits
  · exact List.forall_mem_cons.mpr ⟨rfl, digits⟩
  · exact List.forall_mem_cons.mpr ⟨rfl, digits⟩
  · exact digits

end RowStore.Text

namespace RowStore.IntType

/-- Being taken modulo 2 ^ 64 first does not change the residue modulo a smaller size. -/
theorem wrap_toInt_ofInt (type : IntType) (value : Int) :
    type.wrap (Int64.ofInt value).toInt = type.wrap value := by
  apply Subtype.ext
  obtain ⟨signed, width⟩ := type
  rw [Int64.toInt_ofInt, Int64.size, Int.bmod_def]
  cases signed <;> cases width <;>
    simp only [wrap, residue, least, modulus, IntWidth.size, UInt8.size, UInt16.size, UInt32.size,
      UInt64.size, Bool.false_eq_true, if_true, if_false] <;>
    split <;> omega

theorem wrap_of_holds {type : IntType} {value : Int} (holds : type.Holds value) :
    type.wrap value = ⟨value, holds⟩ :=
  Subtype.ext (residue_of_holds holds)

end RowStore.IntType
