import Mathlib
import RowStore.Proofs.Text.Bmp

/-! Texts and byte strings that the coding of the Basic Multilingual Plane does not keep.

Encoding takes exactly the texts of the plane and names the first character beyond it. The UTF-8 of a
text that reaches beyond the plane is only refused if the text has a character of the plane past
ASCII; without one it is taken for Latin-1. Strict reading gives back the bytes that a text has,
except for overlong forms, which it takes as well.
-/

namespace RowStore.Text.Bmp

variable {c : Char} {chars : List Char}

/-- A text of the plane is encoded as its UTF-8, in as many bytes as its characters count for, and
read back. Of any other text the first character beyond the plane is named. -/
theorem encode_exact (chars : List Char) :
    ((∀ c ∈ chars, IsBmp c) →
      ∃ bytes, encode chars = .ok bytes ∧ bytes.toByteArray = (String.ofList chars).toUTF8 ∧
        (chars.map encodedLength).sum = bytes.length ∧ decode bytes = .ok chars) ∧
    ((∃ c ∈ chars, ¬ IsBmp c) →
      ∃ c, chars.find? (¬ IsBmp ·) = some c ∧ encode chars = .error (.nonBmp c.toNat)) := by
  constructor
  · intro bmp
    exact ⟨Utf8.encode chars, encode_eq bmp, rfl, (length_encode bmp).symm, decode_encode bmp⟩
  · intro beyond
    obtain ⟨before, c, after, rfl, bmp, outside, found, -⟩ := exists_first_beyond beyond
    exact ⟨c, found, encode_beyond bmp outside⟩

theorem encode_exact_three_widths_and_astral :
    (∃ bytes, encode ['a', 'é', '€'] = .ok bytes ∧
      bytes.toByteArray = (String.ofList ['a', 'é', '€']).toUTF8 ∧
      (['a', 'é', '€'].map encodedLength).sum = bytes.length ∧
      decode bytes = .ok ['a', 'é', '€']) ∧
    ∃ c, ['é', '😀', '𐀀'].find? (¬ IsBmp ·) = some c ∧
      encode ['é', '😀', '𐀀'] = .error (.nonBmp c.toNat) :=
  ⟨(encode_exact ['a', 'é', '€']).1 (by simp [IsBmp]),
    (encode_exact ['é', '😀', '𐀀']).2 (by simp [IsBmp])⟩

section Beyond

theorem decodeStrict_beyond (beyond : ¬ IsBmp c) (offset : Nat) (rest : Bytes) :
    decodeStrict offset (String.utf8EncodeChar c ++ rest) = .error (.invalidUtf8 offset) := by
  rw [IsBmp] at beyond
  have valid := Utf8.toNat_valid c
  have lead : (UInt8.ofNat (c.toNat / 262144 + 0xF0)).toNat = c.toNat / 262144 + 0xF0 :=
    Utf8.toNat_ofNat_of_lt (by omega)
  rw [Utf8.encodeChar_four (by omega), List.cons_append, decodeStrict, readCode, lead,
    if_neg (by omega), if_neg (by omega), if_neg (by omega)]

theorem latin1_ne (beyond : ∃ c ∈ chars, ¬ IsBmp c) (bytes : Bytes) : bytes.map latin1 ≠ chars := by
  rintro rfl
  obtain ⟨c, mem, outside⟩ := beyond
  obtain ⟨byte, -, rfl⟩ := List.mem_map.mp mem
  have small := byte.toNat_lt
  rw [IsBmp, latin1, Char.toNat_ofNat] at outside
  split_ifs at outside <;> omega

/-- The UTF-8 of a text beyond the plane is refused where its first such character starts, if a
character of the text past ASCII lies in the plane. Otherwise it is taken for Latin-1, and so for
another text. -/
theorem decode_beyond (beyond : ∃ c ∈ chars, ¬ IsBmp c) :
    ((∃ c ∈ chars, 0x80 ≤ c.toNat ∧ IsBmp c) →
      decode (Utf8.encode chars) =
        .error (.invalidUtf8 (Utf8.encode (chars.takeWhile (IsBmp ·))).length)) ∧
    ((¬ ∃ c ∈ chars, 0x80 ≤ c.toNat ∧ IsBmp c) →
      decode (Utf8.encode chars) = .ok ((Utf8.encode chars).map latin1) ∧
        (Utf8.encode chars).map latin1 ≠ chars) := by
  constructor
  · intro started
    rw [decode, if_pos (hasSequence_encode_iff.mpr started)]
    obtain ⟨before, c, after, rfl, bmp, outside, -, taken⟩ := exists_first_beyond beyond
    rw [taken, Utf8.encode_append, Utf8.encode_cons, (written_encode bmp).decodeStrict_append,
      decodeStrict_beyond outside, Nat.zero_add]
    rfl
  · intro plain
    rw [decode, if_neg (hasSequence_encode_iff.not.mpr plain)]
    exact ⟨rfl, latin1_ne beyond _⟩

theorem decode_beyond_accent_and_ascii :
    decode (Utf8.encode ['é', '😀']) = .error (.invalidUtf8 2) ∧
    decode (Utf8.encode ['o', 'k', '😀']) = .ok ['o', 'k', 'ð', '\x9f', '\x98', '\x80'] :=
  ⟨(decode_beyond ⟨'😀', by simp [IsBmp]⟩).1 ⟨'é', by simp [IsBmp]⟩,
    ((decode_beyond ⟨'😀', by simp [IsBmp]⟩).2 (by simp [IsBmp])).1⟩

/-- A single character beyond the plane is not refused. -/
theorem decode_lone_astral :
    (∃ c ∈ ['😀'], ¬ IsBmp c) ∧
      ¬ ∃ offset, decode (Utf8.encode ['😀']) = .error (.invalidUtf8 offset) := by
  refine ⟨by simp [IsBmp], ?_⟩
  rintro ⟨offset, refused⟩
  have taken : decode (Utf8.encode ['😀']) = .ok ['ð', '\x9f', '\x98', '\x80'] := by decide
  rw [taken] at refused
  contradiction

end Beyond

section Overlong

variable {bytes : Bytes}

/-- What strict reading makes of bytes can always be encoded. The encoding is read as the same text
and is no longer than the bytes were. It is the bytes themselves unless they have an overlong form. -/
theorem shortest_of_decode (found : hasSequence bytes = true) (read : decode bytes = .ok chars) :
    ∃ shortest, encode chars = .ok shortest ∧ decode shortest = .ok chars ∧
      shortest.length ≤ bytes.length ∧ (shortest = bytes ↔ hasOverlong bytes = false) := by
  rw [decode, if_pos found] at read
  have written := decodeStrict_eq_ok_iff.mp read
  have bmp : ∀ c ∈ chars, IsBmp c := written.toNat_lt
  exact ⟨Utf8.encode chars, encode_eq bmp, decode_encode bmp, written.length_le,
    written.hasOverlong_eq_false_iff.symm⟩

theorem shortest_of_decode_overlong_letter :
    hasSequence [0xC3, 0xA9, 0xE0, 0x81, 0x81] = true ∧
    decode [0xC3, 0xA9, 0xE0, 0x81, 0x81] = .ok ['é', 'A'] ∧
    ∃ shortest, encode ['é', 'A'] = .ok shortest ∧ decode shortest = .ok ['é', 'A'] ∧
      shortest.length ≤ [0xC3, 0xA9, 0xE0, 0x81, 0x81].length ∧
      (shortest = [0xC3, 0xA9, 0xE0, 0x81, 0x81] ↔
        hasOverlong [0xC3, 0xA9, 0xE0, 0x81, 0x81] = false) :=
  have read : decode [0xC3, 0xA9, 0xE0, 0x81, 0x81] = .ok ['é', 'A'] := by decide +kernel
  ⟨by decide, read, shortest_of_decode (by decide) read⟩

/-- The overlong zero is read, and not what is written for it. -/
theorem decode_overlong_zero :
    hasSequence [0xC0, 0x80] = true ∧ decode [0xC0, 0x80] = .ok ['\x00'] ∧
      encode ['\x00'] ≠ .ok [0xC0, 0x80] :=
  ⟨by decide, by decide +kernel, by decide⟩

end Overlong

end RowStore.Text.Bmp
