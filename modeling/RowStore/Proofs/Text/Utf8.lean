import Mathlib
import RowStore.Proofs.Outcome
import RowStore.Text.Utf8

/-! UTF-8 decodes exactly what it encodes.

The sequence of a character is read back whatever follows it, so a text is read back character by
character. Overlong forms, surrogates and code points past the last one have no reading, so nothing
else is read.
-/

namespace RowStore.Text.Utf8

/-- The code point of a character is no surrogate, and not past the last one. -/
theorem toNat_valid (c : Char) : c.toNat < 0xD800 ∨ 0xDFFF < c.toNat ∧ c.toNat < 0x110000 := c.valid

theorem toNat_ofNat_of_lt {number : Nat} (small : number < 256) :
    (UInt8.ofNat number).toNat = number := by
  rw [UInt8.toNat_ofNat']
  omega

theorem encode_cons (c : Char) (chars : List Char) :
    encode (c :: chars) = String.utf8EncodeChar c ++ encode chars :=
  rfl

section Sequences

variable {c : Char}

theorem encodeChar_one (small : c.toNat < 0x80) :
    String.utf8EncodeChar c = [UInt8.ofNat c.toNat] :=
  if_pos (Nat.le_of_lt_succ small)

theorem encodeChar_two (lower : 0x80 ≤ c.toNat) (upper : c.toNat < 0x800) :
    String.utf8EncodeChar c =
      [UInt8.ofNat (c.toNat / 64 + 0xC0), UInt8.ofNat (c.toNat % 64 + 0x80)] := by
  have code : c.val.toNat = c.toNat := rfl
  have high : c.toNat / 64 % 32 = c.toNat / 64 := by omega
  simp only [String.utf8EncodeChar, code]
  rw [if_neg (by omega), if_pos (by omega), high]

theorem encodeChar_three (lower : 0x800 ≤ c.toNat) (upper : c.toNat < 0x10000) :
    String.utf8EncodeChar c =
      [UInt8.ofNat (c.toNat / 4096 + 0xE0), UInt8.ofNat (c.toNat / 64 % 64 + 0x80),
        UInt8.ofNat (c.toNat % 64 + 0x80)] := by
  have code : c.val.toNat = c.toNat := rfl
  have high : c.toNat / 4096 % 16 = c.toNat / 4096 := by omega
  simp only [String.utf8EncodeChar, code]
  rw [if_neg (by omega), if_neg (by omega), if_pos (by omega), high]

theorem encodeChar_four (lower : 0x10000 ≤ c.toNat) :
    String.utf8EncodeChar c =
      [UInt8.ofNat (c.toNat / 262144 + 0xF0), UInt8.ofNat (c.toNat / 4096 % 64 + 0x80),
        UInt8.ofNat (c.toNat / 64 % 64 + 0x80), UInt8.ofNat (c.toNat % 64 + 0x80)] := by
  have valid := toNat_valid c
  have code : c.val.toNat = c.toNat := rfl
  have high : c.toNat / 262144 % 8 = c.toNat / 262144 := by omega
  simp only [String.utf8EncodeChar, code]
  rw [if_neg (by omega), if_neg (by omega), if_neg (by omega), high]

/-- A character takes as many bytes as its code point needs. -/
theorem encodeChar_cases (c : Char) :
    (c.toNat < 0x80 ∧ String.utf8EncodeChar c = [UInt8.ofNat c.toNat]) ∨
    (0x80 ≤ c.toNat ∧ c.toNat < 0x800 ∧ String.utf8EncodeChar c =
      [UInt8.ofNat (c.toNat / 64 + 0xC0), UInt8.ofNat (c.toNat % 64 + 0x80)]) ∨
    (0x800 ≤ c.toNat ∧ c.toNat < 0x10000 ∧ String.utf8EncodeChar c =
      [UInt8.ofNat (c.toNat / 4096 + 0xE0), UInt8.ofNat (c.toNat / 64 % 64 + 0x80),
        UInt8.ofNat (c.toNat % 64 + 0x80)]) ∨
    (0x10000 ≤ c.toNat ∧ c.toNat < 0x110000 ∧ String.utf8EncodeChar c =
      [UInt8.ofNat (c.toNat / 262144 + 0xF0), UInt8.ofNat (c.toNat / 4096 % 64 + 0x80),
        UInt8.ofNat (c.toNat / 64 % 64 + 0x80), UInt8.ofNat (c.toNat % 64 + 0x80)]) := by
  have valid := toNat_valid c
  by_cases one : c.toNat < 0x80
  · exact .inl ⟨one, encodeChar_one one⟩
  by_cases two : c.toNat < 0x800
  · exact .inr (.inl ⟨by omega, two, encodeChar_two (by omega) two⟩)
  by_cases three : c.toNat < 0x10000
  · exact .inr (.inr (.inl ⟨by omega, three, encodeChar_three (by omega) three⟩))
  · exact .inr (.inr (.inr ⟨by omega, by omega, encodeChar_four (by omega)⟩))

end Sequences

section Reading

variable {c : Char} {rest : Bytes}

theorem further_cons {count low high taken code : Nat} {byte : UInt8}
    (lower : low ≤ byte.toNat) (upper : byte.toNat ≤ high) :
    further (count + 1) low high taken code (byte :: rest) =
      further count 0x80 0xBF (taken + 1) (code * 64 + byte.toNat % 64) rest := by
  rw [further, if_pos ⟨lower, upper⟩]

theorem decodeFrom_sequence {lead : UInt8} {after : Bytes} {count low high : Nat}
    (started : ¬ lead.toNat < 0x80) (shape : sequence? lead.toNat = some (count, low, high))
    (read : further count low high 1 (leadBits count lead.toNat) rest = .ok (c.toNat, after))
    (offset : Nat) :
    decodeFrom offset (lead :: rest) = (decodeFrom (offset + 1 + count) after).map (c :: ·) := by
  rw [decodeFrom, if_neg started, shape]
  simp only
  split <;> simp_all

theorem sequence?_three {code : Nat} (lower : 0x800 ≤ code) (upper : code < 0x10000)
    (valid : code < 0xD800 ∨ 0xDFFF < code) :
    ∃ low high, sequence? (code / 4096 + 0xE0) = some (2, low, high) ∧
      low ≤ code / 64 % 64 + 0x80 ∧ code / 64 % 64 + 0x80 ≤ high := by
  rw [sequence?, if_neg (by omega)]
  by_cases first : code / 4096 = 0
  · exact ⟨0xA0, 0xBF, by rw [if_pos (by omega)], by omega, by omega⟩
  by_cases last : code / 4096 = 13
  · exact ⟨0x80, 0x9F, by rw [if_neg (by omega), if_pos (by omega)], by omega, by omega⟩
  · refine ⟨0x80, 0xBF, ?_, by omega, by omega⟩
    rw [if_neg (by omega), if_neg (by omega), if_pos (by omega)]

theorem sequence?_four {code : Nat} (lower : 0x10000 ≤ code) (upper : code < 0x110000) :
    ∃ low high, sequence? (code / 262144 + 0xF0) = some (3, low, high) ∧
      low ≤ code / 4096 % 64 + 0x80 ∧ code / 4096 % 64 + 0x80 ≤ high := by
  rw [sequence?, if_neg (by omega), if_neg (by omega), if_neg (by omega), if_neg (by omega)]
  by_cases first : code / 262144 = 0
  · exact ⟨0x90, 0xBF, by rw [if_pos (by omega)], by omega, by omega⟩
  by_cases last : code / 262144 = 4
  · refine ⟨0x80, 0x8F, ?_, by omega, by omega⟩
    rw [if_neg (by omega), if_neg (by omega), if_pos (by omega)]
  · refine ⟨0x80, 0xBF, ?_, by omega, by omega⟩
    rw [if_neg (by omega), if_pos (by omega)]

theorem decodeFrom_two (lower : 0x80 ≤ c.toNat) (upper : c.toNat < 0x800) (offset : Nat) :
    decodeFrom offset
        (UInt8.ofNat (c.toNat / 64 + 0xC0) :: UInt8.ofNat (c.toNat % 64 + 0x80) :: rest) =
      (decodeFrom (offset + 2) rest).map (c :: ·) := by
  have lead : (UInt8.ofNat (c.toNat / 64 + 0xC0)).toNat = c.toNat / 64 + 0xC0 :=
    toNat_ofNat_of_lt (by omega)
  have second : (UInt8.ofNat (c.toNat % 64 + 0x80)).toNat = c.toNat % 64 + 0x80 :=
    toNat_ofNat_of_lt (by omega)
  have shape : sequence? (c.toNat / 64 + 0xC0) = some (1, 0x80, 0xBF) := by
    rw [sequence?, if_pos (by omega)]
  have bits : leadBits 1 (c.toNat / 64 + 0xC0) * 64 + (c.toNat % 64 + 0x80) % 64 = c.toNat := by
    simp only [leadBits, Nat.reduceSub, Nat.reduceShiftLeft]
    omega
  refine decodeFrom_sequence (by rw [lead]; omega) (by rw [lead]; exact shape) ?_ offset
  rw [lead, further_cons (by omega) (by omega), second, bits, further]

theorem decodeFrom_three (lower : 0x800 ≤ c.toNat) (upper : c.toNat < 0x10000) (offset : Nat) :
    decodeFrom offset
        (UInt8.ofNat (c.toNat / 4096 + 0xE0) :: UInt8.ofNat (c.toNat / 64 % 64 + 0x80) ::
          UInt8.ofNat (c.toNat % 64 + 0x80) :: rest) =
      (decodeFrom (offset + 3) rest).map (c :: ·) := by
  have valid := toNat_valid c
  have lead : (UInt8.ofNat (c.toNat / 4096 + 0xE0)).toNat = c.toNat / 4096 + 0xE0 :=
    toNat_ofNat_of_lt (by omega)
  have second : (UInt8.ofNat (c.toNat / 64 % 64 + 0x80)).toNat = c.toNat / 64 % 64 + 0x80 :=
    toNat_ofNat_of_lt (by omega)
  have third : (UInt8.ofNat (c.toNat % 64 + 0x80)).toNat = c.toNat % 64 + 0x80 :=
    toNat_ofNat_of_lt (by omega)
  obtain ⟨low, high, shape, above, below⟩ := sequence?_three lower upper (by omega)
  have bits : (leadBits 2 (c.toNat / 4096 + 0xE0) * 64 + (c.toNat / 64 % 64 + 0x80) % 64) * 64 +
      (c.toNat % 64 + 0x80) % 64 = c.toNat := by
    simp only [leadBits, Nat.reduceSub, Nat.reduceShiftLeft]
    omega
  refine decodeFrom_sequence (by rw [lead]; omega) (by rw [lead]; exact shape) ?_ offset
  rw [lead, further_cons (by omega) (by omega), further_cons (by omega) (by omega), second, third,
    bits, further]

theorem decodeFrom_four (lower : 0x10000 ≤ c.toNat) (offset : Nat) :
    decodeFrom offset
        (UInt8.ofNat (c.toNat / 262144 + 0xF0) :: UInt8.ofNat (c.toNat / 4096 % 64 + 0x80) ::
          UInt8.ofNat (c.toNat / 64 % 64 + 0x80) :: UInt8.ofNat (c.toNat % 64 + 0x80) :: rest) =
      (decodeFrom (offset + 4) rest).map (c :: ·) := by
  have valid := toNat_valid c
  have lead : (UInt8.ofNat (c.toNat / 262144 + 0xF0)).toNat = c.toNat / 262144 + 0xF0 :=
    toNat_ofNat_of_lt (by omega)
  have second : (UInt8.ofNat (c.toNat / 4096 % 64 + 0x80)).toNat = c.toNat / 4096 % 64 + 0x80 :=
    toNat_ofNat_of_lt (by omega)
  have third : (UInt8.ofNat (c.toNat / 64 % 64 + 0x80)).toNat = c.toNat / 64 % 64 + 0x80 :=
    toNat_ofNat_of_lt (by omega)
  have fourth : (UInt8.ofNat (c.toNat % 64 + 0x80)).toNat = c.toNat % 64 + 0x80 :=
    toNat_ofNat_of_lt (by omega)
  obtain ⟨low, high, shape, above, below⟩ := sequence?_four lower (by omega)
  have bits : ((leadBits 3 (c.toNat / 262144 + 0xF0) * 64 + (c.toNat / 4096 % 64 + 0x80) % 64) * 64 +
      (c.toNat / 64 % 64 + 0x80) % 64) * 64 + (c.toNat % 64 + 0x80) % 64 = c.toNat := by
    simp only [leadBits, Nat.reduceSub, Nat.reduceShiftLeft]
    omega
  refine decodeFrom_sequence (by rw [lead]; omega) (by rw [lead]; exact shape) ?_ offset
  rw [lead, further_cons (by omega) (by omega), further_cons (by omega) (by omega),
    further_cons (by omega) (by omega), second, third, fourth, bits, further]

/-- The sequence of a character is read back, whatever follows it. -/
theorem decodeFrom_encodeChar (offset : Nat) (c : Char) (rest : Bytes) :
    decodeFrom offset (String.utf8EncodeChar c ++ rest) =
      (decodeFrom (offset + (String.utf8EncodeChar c).length) rest).map (c :: ·) := by
  rcases encodeChar_cases c with
    ⟨small, split⟩ | ⟨lower, upper, split⟩ | ⟨lower, upper, split⟩ | ⟨lower, -, split⟩ <;> rw [split]
  · rw [List.singleton_append, decodeFrom, toNat_ofNat_of_lt (by omega), if_pos small,
      Char.ofNat_toNat]
    rfl
  · exact decodeFrom_two lower upper offset
  · exact decodeFrom_three lower upper offset
  · exact decodeFrom_four lower offset

theorem decodeFrom_encode (offset : Nat) (chars : List Char) :
    decodeFrom offset (encode chars) = .ok chars := by
  induction chars generalizing offset with
  | nil => rw [encode, List.flatMap_nil, decodeFrom]
  | cons c chars ih =>
      rw [encode_cons, decodeFrom_encodeChar, ih]
      rfl

theorem further_succ_eq_ok {count low high taken code code' : Nat} {bytes after : Bytes}
    (read : further (count + 1) low high taken code bytes = .ok (code', after)) :
    ∃ byte rest, bytes = byte :: rest ∧ low ≤ byte.toNat ∧ byte.toNat ≤ high ∧
      further count 0x80 0xBF (taken + 1) (code * 64 + byte.toNat % 64) rest = .ok (code', after) := by
  cases bytes with
  | nil => simp [further] at read
  | cons byte rest =>
      rw [further] at read
      split at read
      · rename_i bounds
        exact ⟨byte, rest, rfl, bounds.1, bounds.2, read⟩
      · contradiction

theorem sequence?_eq_some {lead count low high : Nat}
    (shape : sequence? lead = some (count, low, high)) :
    0x80 ≤ low ∧ high ≤ 0xBF ∧
      (count = 1 ∧ 0xC2 ≤ lead ∧ lead ≤ 0xDF ∨
       count = 2 ∧ 0xE0 ≤ lead ∧ lead ≤ 0xEF ∧ (lead = 0xE0 → 0xA0 ≤ low) ∧
         (lead = 0xED → high ≤ 0x9F) ∨
       count = 3 ∧ 0xF0 ≤ lead ∧ lead ≤ 0xF4 ∧ (lead = 0xF0 → 0x90 ≤ low) ∧
         (lead = 0xF4 → high ≤ 0x8F)) := by
  unfold sequence? at shape
  split_ifs at shape <;> simp only [Option.some.injEq, Prod.mk.injEq] at shape <;> omega

/-- A sequence that is read is that of the character with its code point. -/
theorem encodeChar_of_further {lead : UInt8} {count low high code : Nat} {rest after : Bytes}
    (shape : sequence? lead.toNat = some (count, low, high))
    (read : further count low high 1 (leadBits count lead.toNat) rest = .ok (code, after)) :
    lead :: rest = String.utf8EncodeChar (Char.ofNat code) ++ after := by
  have character (valid : code.isValidChar) : (Char.ofNat code).toNat = code := by
    rw [Char.toNat_ofNat, if_pos valid]
  obtain ⟨above, below, two | three | four⟩ := sequence?_eq_some shape
  · obtain ⟨rfl, lower, upper⟩ := two
    obtain ⟨second, rest, rfl, least, greatest, done⟩ := further_succ_eq_ok read
    simp only [further, leadBits, Nat.reduceSub, Nat.reduceShiftLeft, Except.ok.injEq,
      Prod.mk.injEq] at done
    obtain ⟨same, rfl⟩ := done
    replace character := character (.inl (by omega))
    have first : code / 64 + 0xC0 = lead.toNat := by omega
    have last : code % 64 + 0x80 = second.toNat := by omega
    rw [encodeChar_two (by omega) (by omega), character, first, last, UInt8.ofNat_toNat,
      UInt8.ofNat_toNat]
    rfl
  · obtain ⟨rfl, lower, upper, least, greatest⟩ := three
    obtain ⟨second, rest, rfl, bound, bound', done⟩ := further_succ_eq_ok read
    obtain ⟨third, rest, rfl, _, _, done⟩ := further_succ_eq_ok done
    simp only [further, leadBits, Nat.reduceSub, Nat.reduceShiftLeft, Except.ok.injEq,
      Prod.mk.injEq] at done
    obtain ⟨same, rfl⟩ := done
    have valid : code < 0xD800 ∨ 0xDFFF < code := by omega
    replace character := character (by omega)
    have first : code / 4096 + 0xE0 = lead.toNat := by omega
    have middle : code / 64 % 64 + 0x80 = second.toNat := by omega
    have last : code % 64 + 0x80 = third.toNat := by omega
    rw [encodeChar_three (by omega) (by omega), character, first, middle, last, UInt8.ofNat_toNat,
      UInt8.ofNat_toNat, UInt8.ofNat_toNat]
    rfl
  · obtain ⟨rfl, lower, upper, least, greatest⟩ := four
    obtain ⟨second, rest, rfl, _, _, done⟩ := further_succ_eq_ok read
    obtain ⟨third, rest, rfl, _, _, done⟩ := further_succ_eq_ok done
    obtain ⟨fourth, rest, rfl, _, _, done⟩ := further_succ_eq_ok done
    simp only [further, leadBits, Nat.reduceSub, Nat.reduceShiftLeft, Except.ok.injEq,
      Prod.mk.injEq] at done
    obtain ⟨same, rfl⟩ := done
    have range : 0x10000 ≤ code ∧ code < 0x110000 := by omega
    replace character := character (.inr (by omega))
    have first : code / 262144 + 0xF0 = lead.toNat := by omega
    have inner : code / 4096 % 64 + 0x80 = second.toNat := by omega
    have middle : code / 64 % 64 + 0x80 = third.toNat := by omega
    have last : code % 64 + 0x80 = fourth.toNat := by omega
    rw [encodeChar_four (by omega), character, first, inner, middle, last, UInt8.ofNat_toNat,
      UInt8.ofNat_toNat, UInt8.ofNat_toNat, UInt8.ofNat_toNat]
    rfl

theorem encode_of_decodeFrom {offset : Nat} {bytes : Bytes} {chars : List Char}
    (read : decodeFrom offset bytes = .ok chars) : encode chars = bytes := by
  fun_induction decodeFrom offset bytes generalizing chars with
  | case1 offset =>
      cases read
      rfl
  | case2 offset lead rest ascii ih =>
      have character : (Char.ofNat lead.toNat).toNat = lead.toNat := by
        rw [Char.toNat_ofNat, if_pos (.inl (by omega))]
      obtain ⟨others, later, rfl⟩ := Outcome.map_eq_ok_iff.mp read
      rw [encode_cons, encodeChar_one (by omega), character, UInt8.ofNat_toNat, ih later]
      rfl
  | case3 => cases read
  | case4 => cases read
  | case5 offset lead rest past count low high shape code after found ih =>
      obtain ⟨others, later, rfl⟩ := Outcome.map_eq_ok_iff.mp read
      rw [encode_cons, encodeChar_of_further shape found, ih later]

end Reading

theorem decode_encode (chars : List Char) : decode (encode chars) = .ok chars :=
  decodeFrom_encode 0 chars

theorem toString_ofString (text : String) : toString (ofString text) = .ok text := by
  rw [toString, ofString, decode_encode]
  exact congrArg Except.ok (String.ofList_toList)

/-- Nothing but the encoding of a text is read as the text. -/
theorem decode_eq_ok_iff {bytes : Bytes} {chars : List Char} :
    decode bytes = .ok chars ↔ encode chars = bytes := by
  constructor
  · exact encode_of_decodeFrom
  · rintro rfl
    exact decode_encode chars

theorem ofString_of_toString {bytes : Bytes} {text : String} (read : toString bytes = .ok text) :
    ofString text = bytes := by
  obtain ⟨chars, decoded, rfl⟩ := Outcome.map_eq_ok_iff.mp read
  rw [ofString, String.toList_ofList, decode_eq_ok_iff.mp decoded]

section Bytes

theorem encode_append (left right : List Char) :
    encode (left ++ right) = encode left ++ encode right :=
  List.flatMap_append

theorem ofString_append (left right : String) :
    ofString (left ++ right) = ofString left ++ ofString right := by
  rw [ofString, String.toList_append, encode_append]
  rfl

theorem mem_encode {byte : UInt8} {chars : List Char} :
    byte ∈ encode chars ↔ ∃ c ∈ chars, byte ∈ String.utf8EncodeChar c :=
  List.mem_flatMap

theorem encodeChar_ne_nil (c : Char) : String.utf8EncodeChar c ≠ [] := by
  rcases encodeChar_cases c with
    ⟨-, split⟩ | ⟨-, -, split⟩ | ⟨-, -, split⟩ | ⟨-, -, split⟩ <;> simp [split]

/-- A byte of ASCII stands for its own character and is in no longer sequence. -/
theorem eq_of_mem_encodeChar {c : Char} {byte : UInt8} (mem : byte ∈ String.utf8EncodeChar c)
    (ascii : byte.toNat < 0x80) : c = Char.ofNat byte.toNat := by
  -- All bytes of a longer sequence have their highest bit set.
  have high {number : Nat} (above : 0x80 ≤ number) (small : number < 256) :
      byte ≠ UInt8.ofNat number := by
    rintro rfl
    rw [toNat_ofNat_of_lt small] at ascii
    omega
  rcases encodeChar_cases c with
    ⟨small, split⟩ | ⟨_, _, split⟩ | ⟨_, _, split⟩ | ⟨_, _, split⟩ <;>
    simp only [split, List.mem_cons, List.not_mem_nil, or_false] at mem
  · rw [mem, toNat_ofNat_of_lt (by omega), Char.ofNat_toNat]
  · rcases mem with same | same <;> exact absurd same (high (by omega) (by omega))
  · rcases mem with same | same | same <;> exact absurd same (high (by omega) (by omega))
  · rcases mem with same | same | same | same <;>
      exact absurd same (high (by omega) (by omega))

end Bytes

end RowStore.Text.Utf8
