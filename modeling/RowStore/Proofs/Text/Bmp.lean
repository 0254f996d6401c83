import Mathlib
import RowStore.Proofs.Text.Forms

/-! Text of the Basic Multilingual Plane.

What is encoded is UTF-8 and is read back: characters past ASCII start sequences, and without them
the two readings agree. Text that was decoded never takes more room than it came from, if every byte
is counted as the character that it would be in Latin-1.
-/

namespace RowStore.Text.Bmp

/-- Does a character lie in the plane? -/
def IsBmp (c : Char) : Prop := c.toNat < 0x10000

instance : DecidablePred IsBmp := fun c => inferInstanceAs (Decidable (c.toNat < 0x10000))

section Encoding

theorem encodeChar_eq {c : Char} (bmp : IsBmp c) : encodeChar c = .ok (String.utf8EncodeChar c) := by
  rw [IsBmp] at bmp
  simp only [encodeChar]
  rcases Utf8.encodeChar_cases c with
    ⟨one, split⟩ | ⟨_, two, split⟩ | ⟨_, three, split⟩ | ⟨four, _, _⟩
  · rw [if_pos one, split]
  · rw [if_neg (by omega), if_pos two, split, Nat.add_comm 0xC0, Nat.add_comm 0x80]
  · rw [if_neg (by omega), if_neg (by omega), if_pos three, split, Nat.add_comm 0xE0,
      Nat.add_comm 0x80, Nat.add_comm 0x80]
  · omega

theorem encode_eq {chars : List Char} (bmp : ∀ c ∈ chars, IsBmp c) :
    encode chars = .ok (Utf8.encode chars) := by
  induction chars with
  | nil => rfl
  | cons c chars ih =>
      obtain ⟨here, later⟩ := List.forall_mem_cons.mp bmp
      rw [encode, encodeChar_eq here, ih later]
      rfl

theorem length_utf8EncodeChar {c : Char} (bmp : IsBmp c) :
    (String.utf8EncodeChar c).length = encodedLength c := by
  rw [IsBmp] at bmp
  rw [encodedLength]
  rcases Utf8.encodeChar_cases c with
    ⟨one, split⟩ | ⟨_, two, split⟩ | ⟨_, three, split⟩ | ⟨four, _, _⟩
  · rw [split, if_pos one]
    rfl
  · rw [split, if_neg (by omega), if_pos two]
    rfl
  · rw [split, if_neg (by omega), if_neg (by omega)]
    rfl
  · omega

theorem length_encode {chars : List Char} (bmp : ∀ c ∈ chars, IsBmp c) :
    (Utf8.encode chars).length = (chars.map encodedLength).sum := by
  induction chars with
  | nil => rfl
  | cons c chars ih =>
      obtain ⟨here, later⟩ := List.forall_mem_cons.mp bmp
      rw [Utf8.encode_cons, List.length_append, length_utf8EncodeChar here, ih later, List.map_cons,
        List.sum_cons]

theorem encodeChar_beyond {c : Char} (beyond : ¬ IsBmp c) : encodeChar c = .error (.nonBmp c.toNat) := by
  rw [IsBmp] at beyond
  simp only [encodeChar]
  rw [if_neg (by omega), if_neg (by omega), if_neg beyond]

theorem encode_beyond {before after : List Char} {c : Char} (bmp : ∀ d ∈ before, IsBmp d)
    (beyond : ¬ IsBmp c) : encode (before ++ c :: after) = .error (.nonBmp c.toNat) := by
  induction before with
  | nil => rw [List.nil_append, encode, encodeChar_beyond beyond]
  | cons d before ih =>
      obtain ⟨here, later⟩ := List.forall_mem_cons.mp bmp
      rw [List.cons_append, encode, encodeChar_eq here, ih later]

theorem exists_first_beyond {chars : List Char} (beyond : ∃ c ∈ chars, ¬ IsBmp c) :
    ∃ before c after, chars = before ++ c :: after ∧ (∀ d ∈ before, IsBmp d) ∧ ¬ IsBmp c ∧
      chars.find? (¬ IsBmp ·) = some c ∧ chars.takeWhile (IsBmp ·) = before := by
  obtain ⟨d, mem, outside⟩ := beyond
  cases found : chars.find? (¬ IsBmp ·) with
  | none =>
      have inside := List.find?_eq_none.mp found d mem
      simp [outside] at inside
  | some c =>
      obtain ⟨here, before, after, rfl, bmp⟩ := List.find?_eq_some_iff_append.mp found
      simp only [decide_eq_true_eq, decide_not, Bool.not_eq_true', decide_eq_false_iff_not,
        Bool.not_not] at here bmp
      refine ⟨before, c, after, rfl, bmp, here, rfl, ?_⟩
      rw [List.takeWhile_append_of_pos (by simpa using bmp), List.takeWhile_cons_of_neg (by simpa),
        List.append_nil]

/-- Only texts of the plane are encoded. -/
theorem isBmp_of_encode {chars : List Char} {bytes : Bytes} (encoded : encode chars = .ok bytes) :
    ∀ c ∈ chars, IsBmp c := by
  by_contra outside
  push Not at outside
  obtain ⟨before, c, after, rfl, bmp, beyond, -⟩ := exists_first_beyond outside
  rw [encode_beyond bmp beyond] at encoded
  contradiction

end Encoding

section Strict

variable {offset : Nat} {rest : Bytes}

theorem decodeStrict_encode {chars : List Char} (bmp : ∀ c ∈ chars, IsBmp c) (offset : Nat) :
    decodeStrict offset (Utf8.encode chars) = .ok chars :=
  decodeStrict_eq_ok_iff.mpr (written_encode bmp)

theorem continuation_eq_error {bytes : Bytes} {reason : Error}
    (refused : continuation offset bytes = .error reason) : reason = .invalidUtf8 offset := by
  cases bytes with
  | nil => exact (Except.error.inj refused).symm
  | cons byte rest =>
      rw [continuation] at refused
      split at refused
      · contradiction
      · exact (Except.error.inj refused).symm

theorem readCode_eq_error {lead : UInt8} {reason : Error}
    (refused : readCode offset lead rest = .error reason) : ∃ flaw, reason = .invalidUtf8 flaw := by
  simp only [readCode] at refused
  split_ifs at refused
  · rcases Outcome.bind_eq_error_iff.mp refused with second | ⟨bits, -, same⟩
    · exact ⟨_, continuation_eq_error second⟩
    · cases same
  · rcases Outcome.bind_eq_error_iff.mp refused with second | ⟨bits, -, later⟩
    · exact ⟨_, continuation_eq_error second⟩
    · rcases Outcome.bind_eq_error_iff.mp later with third | ⟨bits', -, same⟩
      · exact ⟨_, continuation_eq_error third⟩
      · cases same
  · cases refused
    exact ⟨_, rfl⟩

theorem decodeStrict_eq_error {bytes : Bytes} {reason : Error}
    (refused : decodeStrict offset bytes = .error reason) : ∃ flaw, reason = .invalidUtf8 flaw := by
  fun_induction decodeStrict offset bytes with
  | case1 offset => cases refused
  | case2 offset lead rest other first =>
      cases refused
      exact readCode_eq_error first
  | case3 offset lead rest code width first valid ih =>
      exact ih (Outcome.map_eq_error_iff.mp refused)
  | case4 offset lead rest code width first surrogate =>
      cases refused
      exact ⟨offset, rfl⟩

/-- Bytes are only refused for what they are as text. -/
theorem decode_eq_error {bytes : Bytes} {reason : Error} (refused : decode bytes = .error reason) :
    ∃ flaw, reason = .invalidUtf8 flaw := by
  rw [decode] at refused
  split at refused
  · exact decodeStrict_eq_error refused
  · contradiction

end Strict

section Sequences

theorem hasSequence_cons {bytes : Bytes} (found : hasSequence bytes = true) (byte : UInt8) :
    hasSequence (byte :: bytes) = true := by
  match bytes, found with
  | first :: second :: rest, found => rw [hasSequence, found, Bool.or_true]

theorem hasSequence_append_left (before : Bytes) {bytes : Bytes}
    (found : hasSequence bytes = true) : hasSequence (before ++ bytes) = true := by
  induction before with
  | nil => exact found
  | cons byte before ih => exact hasSequence_cons ih byte

theorem exists_lead {bytes : Bytes} (found : hasSequence bytes = true) :
    ∃ byte ∈ bytes, isLead byte = true := by
  fun_induction hasSequence bytes with
  | case1 first second rest ih =>
      rw [Bool.or_eq_true, Bool.and_eq_true] at found
      rcases found with ⟨lead, -⟩ | later
      · exact ⟨first, List.mem_cons_self, lead⟩
      · obtain ⟨byte, mem, lead⟩ := ih later
        exact ⟨byte, List.mem_cons_of_mem first mem, lead⟩
  | case2 => cases found

theorem isLead_ofNat {number : Nat} (small : number < 256) :
    isLead (UInt8.ofNat number) = true ↔ 0xC0 ≤ number ∧ number < 0xF0 := by
  rw [isLead, Utf8.toNat_ofNat_of_lt small, Bool.and_eq_true, decide_eq_true_iff,
    decide_eq_true_iff]
  omega

/-- A character past ASCII starts with a lead byte, and a continuation byte follows. -/
theorem hasSequence_encodeChar {c : Char} (bmp : IsBmp c) (past : 0x80 ≤ c.toNat) (rest : Bytes) :
    hasSequence (String.utf8EncodeChar c ++ rest) = true := by
  rw [IsBmp] at bmp
  rcases Utf8.encodeChar_cases c with
    ⟨one, _⟩ | ⟨_, two, split⟩ | ⟨_, three, split⟩ | ⟨four, _, _⟩
  · omega
  · rw [split, List.cons_append, List.singleton_append, hasSequence,
      (isLead_ofNat (by omega)).mpr (by omega), isContinuation_ofNat (by omega)]
    rfl
  · rw [split, List.cons_append, List.cons_append, hasSequence,
      (isLead_ofNat (by omega)).mpr (by omega), isContinuation_ofNat (by omega)]
    rfl
  · omega

/-- No byte of the sequence of another character is a lead byte. -/
theorem not_lead_of_mem_encodeChar {c : Char} {byte : UInt8} (plain : 0x80 ≤ c.toNat → ¬ IsBmp c)
    (mem : byte ∈ String.utf8EncodeChar c) : ¬ isLead byte = true := by
  rw [IsBmp] at plain
  rcases Utf8.encodeChar_cases c with
    ⟨one, split⟩ | ⟨_, _, _⟩ | ⟨_, _, _⟩ | ⟨_, _, split⟩
  · rw [split, List.mem_singleton] at mem
    rw [mem, isLead_ofNat (by omega)]
    omega
  · omega
  · omega
  · simp only [split, List.mem_cons, List.not_mem_nil, or_false] at mem
    rcases mem with rfl | rfl | rfl | rfl <;> rw [isLead_ofNat (by omega)] <;> omega

/-- Sequences show in the encoding of a text exactly if it has a character past ASCII that lies in
the plane. -/
theorem hasSequence_encode_iff {chars : List Char} :
    hasSequence (Utf8.encode chars) = true ↔ ∃ c ∈ chars, 0x80 ≤ c.toNat ∧ IsBmp c := by
  constructor
  · intro found
    obtain ⟨byte, mem, lead⟩ := exists_lead found
    obtain ⟨c, known, inside⟩ := Utf8.mem_encode.mp mem
    by_contra none
    refine not_lead_of_mem_encodeChar (fun past bmp => none ⟨c, known, past, bmp⟩) inside lead
  · rintro ⟨c, mem, past, bmp⟩
    obtain ⟨before, after, rfl⟩ := List.append_of_mem mem
    rw [Utf8.encode_append, Utf8.encode_cons]
    exact hasSequence_append_left _ (hasSequence_encodeChar bmp past _)

theorem map_latin1_encode {chars : List Char} (ascii : ∀ c ∈ chars, c.toNat < 0x80) :
    (Utf8.encode chars).map latin1 = chars := by
  induction chars with
  | nil => rfl
  | cons c chars ih =>
      obtain ⟨here, later⟩ := List.forall_mem_cons.mp ascii
      rw [Utf8.encode_cons, Utf8.encodeChar_one here, List.singleton_append, List.map_cons, ih later,
        latin1, Utf8.toNat_ofNat_of_lt (by omega), Char.ofNat_toNat]

theorem decode_encode {chars : List Char} (bmp : ∀ c ∈ chars, IsBmp c) :
    decode (Utf8.encode chars) = .ok chars := by
  rw [decode]
  split
  · exact decodeStrict_encode bmp 0
  · rename_i plain
    rw [hasSequence_encode_iff] at plain
    rw [map_latin1_encode]
    intro c mem
    by_contra past
    exact plain ⟨c, mem, by omega, bmp c mem⟩

theorem decode_of_encode {chars : List Char} {bytes : Bytes} (encoded : encode chars = .ok bytes) :
    decode bytes = .ok chars := by
  have bmp := isBmp_of_encode encoded
  rw [encode_eq bmp] at encoded
  cases encoded
  exact decode_encode bmp

end Sequences

section Room

/-- The room of bytes that count as Latin-1. -/
def room (bytes : Bytes) : Nat := (bytes.map fun byte => encodedLength (latin1 byte)).sum

theorem encodedLength_pos (c : Char) : 0 < encodedLength c := by
  rw [encodedLength]
  split_ifs <;> omega

theorem length_le_room (bytes : Bytes) : bytes.length ≤ room bytes := by
  induction bytes with
  | nil => exact Nat.zero_le _
  | cons byte bytes ih =>
      have here := encodedLength_pos (latin1 byte)
      rw [room, List.map_cons, List.sum_cons, List.length_cons]
      rw [room] at ih
      omega

theorem decodeStrict_bounds {offset : Nat} {bytes : Bytes} {chars : List Char}
    (read : decodeStrict offset bytes = .ok chars) :
    (∀ c ∈ chars, IsBmp c) ∧ (chars.map encodedLength).sum ≤ bytes.length := by
  have written := decodeStrict_eq_ok_iff.mp read
  have bmp : ∀ c ∈ chars, IsBmp c := written.toNat_lt
  exact ⟨bmp, length_encode bmp ▸ written.length_le⟩

/-- Decoded text consists of characters of the plane, and takes no more room than its bytes count
for. -/
theorem decode_bounds {bytes : Bytes} {chars : List Char} (read : decode bytes = .ok chars) :
    (∀ c ∈ chars, IsBmp c) ∧ (chars.map encodedLength).sum ≤ room bytes := by
  rw [decode] at read
  split at read
  · obtain ⟨bmp, short⟩ := decodeStrict_bounds read
    exact ⟨bmp, short.trans (length_le_room bytes)⟩
  · cases read
    refine ⟨?_, by rw [room, List.map_map]; rfl⟩
    intro c mem
    obtain ⟨byte, -, rfl⟩ := List.mem_map.mp mem
    have small := byte.toNat_lt
    rw [IsBmp, latin1, Char.toNat_ofNat]
    split_ifs <;> omega

end Room

end RowStore.Text.Bmp
