import Mathlib
import RowStore.Packing
import RowStore.Proofs.Value.Encoding

/-! Values share a word without loss.

Read as numbers, masking is a remainder and moving a word is a product or a quotient by a power of
two. So a word made of two is the first one times a power of two plus the second one, and division
by that power takes it apart again.
-/

namespace RowStore

namespace Packing

variable {word : UInt64} {first second : Bits} {firstWidth secondWidth : Nat}

section Words

theorem toNat_lt_of_full {width : Nat} (full : 64 ≤ width) : word.toNat < 2 ^ width :=
  word.toNat_lt.trans_le (Nat.pow_le_pow_right (by decide) full)

theorem toNat_mask (width : Nat) : (mask width).toNat = 2 ^ min width 64 - 1 := by
  have fits : 2 ^ min width 64 ≤ 2 ^ 64 := Nat.pow_le_pow_right (by decide) (min_le_right _ _)
  rw [mask, UInt64.toNat_ofNat', Nat.one_shiftLeft]
  exact Nat.mod_eq_of_lt (by omega)

/-- The lowest bits of a word are its remainder. A mask of the whole word keeps all of it. -/
theorem toNat_and_mask (word : UInt64) (width : Nat) :
    (word &&& mask width).toNat = word.toNat % 2 ^ width := by
  rw [UInt64.toNat_and, toNat_mask, Nat.and_two_pow_sub_one_eq_mod]
  rcases le_total width 64 with short | full
  · rw [min_eq_left short]
  · rw [min_eq_right full, Nat.mod_eq_of_lt word.toNat_lt, Nat.mod_eq_of_lt (toNat_lt_of_full full)]

theorem toNat_raise {count : Nat} (fits : word.toNat * 2 ^ count < 2 ^ 64) :
    (raise word count).toNat = word.toNat * 2 ^ count := by
  rw [raise]
  split_ifs with short
  · have amount : (UInt64.ofNat count).toNat = count :=
      Nat.mod_eq_of_lt (short.trans (by decide))
    rw [UInt64.toNat_shiftLeft, amount, Nat.mod_eq_of_lt short, Nat.shiftLeft_eq,
      Nat.mod_eq_of_lt fits]
  -- Past the end of the word there is only room for zero.
  · have power : 2 ^ 64 ≤ 2 ^ count := Nat.pow_le_pow_right (by decide) (not_lt.mp short)
    have zero : word.toNat = 0 := by
      by_contra positive
      have large := Nat.le_mul_of_pos_left (2 ^ count) (Nat.pos_of_ne_zero positive)
      omega
    rw [zero, Nat.zero_mul]
    rfl

theorem toNat_lower (word : UInt64) (count : Nat) :
    (lower word count).toNat = word.toNat / 2 ^ count := by
  rw [lower]
  split_ifs with short
  · have amount : (UInt64.ofNat count).toNat = count :=
      Nat.mod_eq_of_lt (short.trans (by decide))
    rw [UInt64.toNat_shiftRight, amount, Nat.mod_eq_of_lt short, Nat.shiftRight_eq_div_pow]
  · rw [Nat.div_eq_of_lt (toNat_lt_of_full (not_lt.mp short))]
    rfl

end Words

section Pairs

theorem pack_eq_error_iff {reason : Error} : pack first second = .error reason ↔
    64 < first.width + second.width ∧ reason = .tooWide first.width second.width := by
  rw [pack]
  split_ifs with wide <;> simp [wide, eq_comm]

/-- The first value stands above the second one. -/
theorem pack_eq_ok (first second : Bits) (narrow : first.width + second.width ≤ 64) :
    ∃ word, pack first second = .ok word ∧ word.toNat =
      first.word.toNat % 2 ^ first.width * 2 ^ second.width +
        second.word.toNat % 2 ^ second.width := by
  have low := Nat.mod_lt second.word.toNat (Nat.two_pow_pos second.width)
  have high := Nat.mod_lt first.word.toNat (Nat.two_pow_pos first.width)
  have room : 2 ^ first.width * 2 ^ second.width ≤ 2 ^ 64 := by
    rw [← pow_add]
    exact Nat.pow_le_pow_right (by decide) narrow
  have fits : first.word.toNat % 2 ^ first.width * 2 ^ second.width < 2 ^ 64 :=
    (Nat.mul_lt_mul_of_pos_right high (Nat.two_pow_pos _)).trans_le room
  rw [← toNat_and_mask] at fits
  refine ⟨_, if_neg (not_lt.mpr narrow), ?_⟩
  rw [UInt64.toNat_or, toNat_raise fits, toNat_and_mask, toNat_and_mask, ← Nat.shiftLeft_eq,
    Nat.shiftLeft_add_eq_or_of_lt low]

theorem toNat_unpack_fst (word : UInt64) (firstWidth secondWidth : Nat) :
    (unpack word firstWidth secondWidth).1.toNat = word.toNat / 2 ^ secondWidth % 2 ^ firstWidth := by
  rw [unpack, toNat_and_mask, toNat_lower]

theorem toNat_unpack_snd (word : UInt64) (firstWidth secondWidth : Nat) :
    (unpack word firstWidth secondWidth).2.toNat = word.toNat % 2 ^ secondWidth :=
  toNat_and_mask word secondWidth

/-- A word that two values were packed in is below the power of both widths, and taken apart it shows
the bits of each. -/
theorem unpack_pack (first second : Bits) (narrow : first.width + second.width ≤ 64) :
    ∃ word, pack first second = .ok word ∧ word.toNat < 2 ^ (first.width + second.width) ∧
      (unpack word first.width second.width).1.toNat = first.word.toNat % 2 ^ first.width ∧
      (unpack word first.width second.width).2.toNat = second.word.toNat % 2 ^ second.width := by
  obtain ⟨word, packed, value⟩ := pack_eq_ok first second narrow
  have low := Nat.mod_lt second.word.toNat (Nat.two_pow_pos second.width)
  have high := Nat.mod_lt first.word.toNat (Nat.two_pow_pos first.width)
  refine ⟨word, packed, ?_, ?_, ?_⟩
  · have most := Nat.mul_le_mul_right (2 ^ second.width) (Nat.succ_le_of_lt high)
    rw [Nat.succ_mul, ← pow_add] at most
    omega
  · rw [toNat_unpack_fst, value, Nat.add_comm, Nat.add_mul_div_right _ _ (Nat.two_pow_pos _),
      Nat.div_eq_of_lt low, Nat.zero_add, Nat.mod_mod]
  · rw [toNat_unpack_snd, value, Nat.add_comm, Nat.add_mul_mod_self_right, Nat.mod_mod]

/-- A word with no bits above both widths is packed again from what it is taken apart to. -/
theorem pack_unpack (narrow : firstWidth + secondWidth ≤ 64)
    (small : word.toNat < 2 ^ (firstWidth + secondWidth)) :
    pack ⟨(unpack word firstWidth secondWidth).1, firstWidth⟩
      ⟨(unpack word firstWidth secondWidth).2, secondWidth⟩ = .ok word := by
  obtain ⟨packed, same, value⟩ := pack_eq_ok ⟨(unpack word firstWidth secondWidth).1, firstWidth⟩
    ⟨(unpack word firstWidth secondWidth).2, secondWidth⟩ narrow
  have above : word.toNat / 2 ^ secondWidth < 2 ^ firstWidth := by
    rw [Nat.div_lt_iff_lt_mul (Nat.two_pow_pos _), ← pow_add]
    exact small
  rw [toNat_unpack_fst, toNat_unpack_snd, Nat.mod_mod, Nat.mod_mod, Nat.mod_eq_of_lt above,
    Nat.div_add_mod'] at value
  rw [same, UInt64.toNat_inj.mp value]

end Pairs

end Packing

namespace Packable

theorem width_le (type : Packable) : type.width ≤ 64 := by
  cases type with
  | integer type =>
      obtain ⟨signed, width⟩ := type
      cases signed <;> cases width <;> decide
  | _ => decide

theorem pattern_lt_width {type : IntType} (value : type.Elem) :
    type.pattern value < 2 ^ (integer type).width := by
  have below := IntType.pattern_lt type value
  rwa [show (256 : Nat) = 2 ^ 8 from rfl, ← pow_mul] at below

theorem toNat_toWord_integer {type : IntType} (value : type.Elem) :
    ((integer type).toWord value).toNat = type.pattern value :=
  Nat.mod_eq_of_lt ((pattern_lt_width value).trans_le
    (Nat.pow_le_pow_right (by decide) (width_le (integer type))))

/-- The word of a value has no bits above the width of its type. -/
theorem toNat_toWord_lt (type : Packable) (value : type.Elem) :
    (type.toWord value).toNat < 2 ^ type.width := by
  cases type with
  | integer type =>
      rw [toNat_toWord_integer]
      exact pattern_lt_width value
  | single =>
      rw [toWord, UInt32.toNat_toUInt64]
      exact value.bits.toNat_lt
  | double => exact value.bits.toNat_lt
  | char =>
      rw [toWord, UInt32.toNat_toUInt64]
      exact value.val.toNat_lt

theorem ofWord_toWord (type : Packable) (value : type.Elem) :
    type.ofWord (type.toWord value) = value := by
  cases type with
  | integer type =>
      rw [ofWord, toNat_toWord_integer]
      exact IntType.ofPattern_pattern type value
  | single =>
      rw [ofWord, toWord, UInt32.toUInt32_toUInt64]
  | double => rfl
  | char =>
      rw [ofWord, toWord, dif_pos]
      · exact Char.ext (UInt32.toUInt32_toUInt64 _)
      · rw [UInt32.toUInt32_toUInt64]
        exact value.valid

/-- The lowest bits of a word that show those of a value make the value. -/
theorem ofWord_eq (type : Packable) {value : type.Elem} {word : UInt64}
    (shown : word.toNat = (type.toWord value).toNat % 2 ^ type.width) : type.ofWord word = value := by
  rw [Nat.mod_eq_of_lt (type.toNat_toWord_lt value)] at shown
  rw [UInt64.toNat_inj.mp shown, type.ofWord_toWord]

end Packable

namespace PackedPair

variable {first second : Packable}

theorem ofPair_cases (left : first.Elem) (right : second.Elem) :
    (first.width + second.width ≤ 64 ∧
      ∃ word, Packing.pack (first.bits left) (second.bits right) = .ok word ∧
        (ofPair left right : PackedPair first second) = .packed word) ∨
    (64 < first.width + second.width ∧
      (ofPair left right : PackedPair first second) = .plain left right) := by
  rcases le_or_gt (first.width + second.width) 64 with narrow | wide
  · obtain ⟨word, packed, -⟩ := Packing.unpack_pack (first.bits left) (second.bits right) narrow
    exact .inl ⟨narrow, word, packed, by rw [ofPair, Packing.packValues, packed]⟩
  · have refused : Packing.pack (first.bits left) (second.bits right) =
        .error (.tooWide first.width second.width) := Packing.pack_eq_error_iff.mpr ⟨wide, rfl⟩
    exact .inr ⟨wide, by rw [ofPair, Packing.packValues, refused]⟩

theorem isPacked_ofPair_iff (left : first.Elem) (right : second.Elem) :
    (ofPair left right : PackedPair first second).isPacked = true ↔
      first.width + second.width ≤ 64 := by
  rcases ofPair_cases left right with ⟨narrow, word, -, same⟩ | ⟨wide, same⟩
  · exact iff_of_true (by rw [same]; rfl) narrow
  · exact iff_of_false (by rw [same]; exact Bool.false_ne_true) (not_le.mpr wide)

/-- A pair is given back, whether its values share a word or not. -/
theorem toPair_ofPair (left : first.Elem) (right : second.Elem) :
    (ofPair left right : PackedPair first second).toPair = (left, right) := by
  rcases ofPair_cases left right with ⟨narrow, word, packed, same⟩ | ⟨-, same⟩
  · obtain ⟨other, also, -, high, low⟩ :=
      Packing.unpack_pack (first.bits left) (second.bits right) narrow
    obtain rfl := Except.ok.inj (packed.symm.trans also)
    rw [same, toPair, Packing.unpackValues]
    exact Prod.ext (first.ofWord_eq high) (second.ofWord_eq low)
  · rw [same]
    rfl

end PackedPair

namespace Packing

/-- Two values are refused just if they are wider than a word together. Otherwise their word is below
the power of both widths, taken apart it shows the lowest bits of each, and every word that small is
packed again from what it is taken apart to. Two values of any types are given back, and they share a
word just if their widths have room in it. -/
theorem pack_exact :
    (∀ (first second : Bits) (reason : Error), pack first second = .error reason ↔
      64 < first.width + second.width ∧ reason = .tooWide first.width second.width) ∧
    (∀ first second : Bits, first.width + second.width ≤ 64 →
      ∃ word, pack first second = .ok word ∧ word.toNat < 2 ^ (first.width + second.width) ∧
        (unpack word first.width second.width).1.toNat = first.word.toNat % 2 ^ first.width ∧
        (unpack word first.width second.width).2.toNat = second.word.toNat % 2 ^ second.width) ∧
    (∀ (word : UInt64) (firstWidth secondWidth : Nat), firstWidth + secondWidth ≤ 64 →
      word.toNat < 2 ^ (firstWidth + secondWidth) →
      pack ⟨(unpack word firstWidth secondWidth).1, firstWidth⟩
        ⟨(unpack word firstWidth secondWidth).2, secondWidth⟩ = .ok word) ∧
    ∀ (first second : Packable) (left : first.Elem) (right : second.Elem),
      ((PackedPair.ofPair left right : PackedPair first second).isPacked = true ↔
        first.width + second.width ≤ 64) ∧
      (PackedPair.ofPair left right : PackedPair first second).toPair = (left, right) :=
  ⟨fun _ _ _ => pack_eq_error_iff, unpack_pack, fun _ _ _ => pack_unpack,
    fun _ _ left right =>
      ⟨PackedPair.isPacked_ofPair_iff left right, PackedPair.toPair_ofPair left right⟩⟩

/-- A whole word beside no bits at all, a word that uses all of its bits, and a negative number. -/
theorem pack_exact_full_and_negative :
    (∃ word, pack ⟨0xFFFFFFFFFFFFFFFF, 0⟩ ⟨0x8000000000000001, 64⟩ = .ok word ∧
      word.toNat < 2 ^ (0 + 64) ∧ (unpack word 0 64).1.toNat = 0xFFFFFFFFFFFFFFFF % 2 ^ 0 ∧
      (unpack word 0 64).2.toNat = 0x8000000000000001 % 2 ^ 64) ∧
    pack ⟨(unpack 0xABCDEF0123456789 40 24).1, 40⟩ ⟨(unpack 0xABCDEF0123456789 40 24).2, 24⟩ =
      .ok 0xABCDEF0123456789 ∧
    (PackedPair.ofPair ⟨-4, by decide⟩ ⟨3, by decide⟩ :
      PackedPair (.integer .int16) (.integer .uint8)).toPair = (⟨-4, by decide⟩, ⟨3, by decide⟩) := by
  obtain ⟨-, joined, parted, pairs⟩ := pack_exact
  exact ⟨joined ⟨0xFFFFFFFFFFFFFFFF, 0⟩ ⟨0x8000000000000001, 64⟩ (by decide),
    parted 0xABCDEF0123456789 40 24 (by decide) (by decide), (pairs _ _ _ _).2⟩

end Packing

end RowStore
