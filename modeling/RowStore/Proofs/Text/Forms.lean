import Mathlib
import RowStore.Proofs.Outcome
import RowStore.Proofs.Text.Utf8
import RowStore.Text.Bmp

/-! The forms in which strict reading takes a character of the Basic Multilingual Plane.

Every character of the plane has a form of three bytes, and one of two bytes or of one if its code
point is small enough for it. Bytes are read strictly exactly when they are a row of such forms. A
form that is longer than it has to be shows it in its first two bytes.
-/

namespace RowStore.Text.Bmp

inductive Form (c : Char) : Bytes → Prop where
  | one (small : c.toNat < 0x80) : Form c [UInt8.ofNat c.toNat]
  | two (small : c.toNat < 0x800) :
      Form c [UInt8.ofNat (c.toNat / 64 + 0xC0), UInt8.ofNat (c.toNat % 64 + 0x80)]
  | three (small : c.toNat < 0x10000) :
      Form c [UInt8.ofNat (c.toNat / 4096 + 0xE0), UInt8.ofNat (c.toNat / 64 % 64 + 0x80),
        UInt8.ofNat (c.toNat % 64 + 0x80)]

/-- Every character of a text stands in one of its forms. -/
inductive Written : List Char → Bytes → Prop where
  | nil : Written [] []
  | cons {c : Char} {chars : List Char} {form rest : Bytes} (first : Form c form)
      (others : Written chars rest) : Written (c :: chars) (form ++ rest)

section Reading

variable {offset : Nat} {rest : Bytes}

theorem decodeStrict_cons {c : Char} {lead : UInt8} (width : Nat)
    (read : readCode offset lead rest = .ok (c.toNat, width)) :
    decodeStrict offset (lead :: rest) =
      (decodeStrict (offset + width) (rest.drop (width - 1))).map (c :: ·) := by
  have valid : c.toNat.isValidChar := c.valid
  rw [decodeStrict, read]
  simp only [if_pos valid, Char.ofNat_toNat]

theorem isContinuation_ofNat {bits : Nat} (small : bits < 64) :
    isContinuation (UInt8.ofNat (bits + 0x80)) = true := by
  rw [isContinuation, Utf8.toNat_ofNat_of_lt (by omega), decide_eq_true_iff]
  omega

theorem continuation_ofNat {bits : Nat} (small : bits < 64) :
    continuation offset (UInt8.ofNat (bits + 0x80) :: rest) = .ok bits := by
  rw [continuation, if_pos (isContinuation_ofNat small), Utf8.toNat_ofNat_of_lt (by omega)]
  congr 1
  omega

theorem continuation_eq_ok {bytes : Bytes} {bits : Nat}
    (read : continuation offset bytes = .ok bits) :
    bits < 64 ∧ ∃ rest, bytes = UInt8.ofNat (bits + 0x80) :: rest := by
  cases bytes with
  | nil => contradiction
  | cons byte rest =>
      rw [continuation] at read
      split at read
      · rename_i follows
        cases read
        rw [isContinuation, decide_eq_true_iff] at follows
        have same : byte.toNat % 64 + 0x80 = byte.toNat := by omega
        exact ⟨by omega, rest, by rw [same, UInt8.ofNat_toNat]⟩
      · contradiction

/-- A form is read as its character, whatever follows it. -/
theorem decodeStrict_form {c : Char} {form : Bytes} (shape : Form c form) (offset : Nat)
    (rest : Bytes) :
    decodeStrict offset (form ++ rest) =
      (decodeStrict (offset + form.length) rest).map (c :: ·) := by
  cases shape with
  | one small =>
      have lead : (UInt8.ofNat c.toNat).toNat = c.toNat := Utf8.toNat_ofNat_of_lt (by omega)
      rw [List.singleton_append]
      refine decodeStrict_cons 1 ?_
      rw [readCode, lead, if_pos (by omega)]
  | two small =>
      have lead : (UInt8.ofNat (c.toNat / 64 + 0xC0)).toNat = c.toNat / 64 + 0xC0 :=
        Utf8.toNat_ofNat_of_lt (by omega)
      rw [List.cons_append, List.singleton_append]
      refine decodeStrict_cons 2 ?_
      rw [readCode, lead, if_neg (by omega), if_pos (by omega), continuation_ofNat (by omega)]
      simp only [bind, Except.bind]
      congr 2
      omega
  | three small =>
      have lead : (UInt8.ofNat (c.toNat / 4096 + 0xE0)).toNat = c.toNat / 4096 + 0xE0 :=
        Utf8.toNat_ofNat_of_lt (by omega)
      rw [List.cons_append, List.cons_append, List.singleton_append]
      refine decodeStrict_cons 3 ?_
      rw [readCode, lead, if_neg (by omega), if_neg (by omega), if_pos (by omega),
        continuation_ofNat (by omega), List.drop_succ_cons, List.drop_zero,
        continuation_ofNat (by omega)]
      simp only [bind, Except.bind]
      congr 2
      omega

/-- What is read as a character at the front is a form of it. -/
theorem form_of_readCode {c : Char} {lead : UInt8} {width : Nat}
    (read : readCode offset lead rest = .ok (c.toNat, width)) :
    ∃ form, Form c form ∧ form.length = width ∧ lead :: rest = form ++ rest.drop (width - 1) := by
  have bound := lead.toNat_lt
  simp only [readCode] at read
  split_ifs at read with single double triple
  · simp only [Except.ok.injEq, Prod.mk.injEq] at read
    obtain ⟨code, rfl⟩ := read
    refine ⟨_, .one (by omega), rfl, ?_⟩
    rw [← code, UInt8.ofNat_toNat]
    rfl
  · obtain ⟨second, first, same⟩ := Outcome.bind_eq_ok_iff.mp read
    simp only [Except.ok.injEq, Prod.mk.injEq] at same
    obtain ⟨code, rfl⟩ := same
    obtain ⟨small, after, rfl⟩ := continuation_eq_ok first
    refine ⟨_, .two (by omega), rfl, ?_⟩
    have high : c.toNat / 64 + 0xC0 = lead.toNat := by omega
    have low : c.toNat % 64 = second := by omega
    rw [high, low, UInt8.ofNat_toNat]
    rfl
  · obtain ⟨second, first, same⟩ := Outcome.bind_eq_ok_iff.mp read
    obtain ⟨third, later, same⟩ := Outcome.bind_eq_ok_iff.mp same
    simp only [Except.ok.injEq, Prod.mk.injEq] at same
    obtain ⟨code, rfl⟩ := same
    obtain ⟨small, after, rfl⟩ := continuation_eq_ok first
    obtain ⟨small', after', rest'⟩ := continuation_eq_ok later
    rw [List.drop_succ_cons, List.drop_zero] at rest'
    subst rest'
    refine ⟨_, .three (by omega), rfl, ?_⟩
    have high : c.toNat / 4096 + 0xE0 = lead.toNat := by omega
    have middle : c.toNat / 64 % 64 = second := by omega
    have low : c.toNat % 64 = third := by omega
    rw [high, middle, low, UInt8.ofNat_toNat]
    rfl

theorem written_of_decodeStrict {bytes : Bytes} {chars : List Char}
    (read : decodeStrict offset bytes = .ok chars) : Written chars bytes := by
  fun_induction decodeStrict offset bytes generalizing chars with
  | case1 offset =>
      cases read
      exact .nil
  | case2 => cases read
  | case3 offset lead rest code width first valid ih =>
      obtain ⟨others, later, rfl⟩ := Outcome.map_eq_ok_iff.mp read
      have same : (Char.ofNat code).toNat = code := by rw [Char.toNat_ofNat, if_pos valid]
      rw [← same] at first
      obtain ⟨form, shape, length, split⟩ := form_of_readCode first
      rw [split]
      exact .cons shape (ih later)
  | case4 => cases read

/-- A row of forms is read as its text, whatever follows it. -/
theorem Written.decodeStrict_append {chars : List Char} {bytes : Bytes}
    (written : Written chars bytes) (offset : Nat) (rest : Bytes) :
    decodeStrict offset (bytes ++ rest) =
      (decodeStrict (offset + bytes.length) rest).map (chars ++ ·) := by
  induction written generalizing offset with
  | nil =>
      rw [List.nil_append]
      cases decodeStrict (offset + ([] : Bytes).length) rest <;> rfl
  | cons first others ih =>
      rw [List.append_assoc, decodeStrict_form first, ih, List.length_append, Nat.add_assoc]
      cases decodeStrict _ rest <;> rfl

/-- Strict reading takes exactly the rows of forms. -/
theorem decodeStrict_eq_ok_iff {bytes : Bytes} {chars : List Char} :
    decodeStrict offset bytes = .ok chars ↔ Written chars bytes := by
  constructor
  · exact written_of_decodeStrict
  · intro written
    have read := written.decodeStrict_append offset []
    rw [List.append_nil, decodeStrict] at read
    rw [read, Except.map, List.append_nil]

end Reading

section Shortest

/-- Do two bytes start a form of a character that has a shorter one? -/
def isOverlong (first second : UInt8) : Bool :=
  (0xC0 ≤ first.toNat && first.toNat < 0xC2) || (first.toNat = 0xE0 && second.toNat < 0xA0)

def hasOverlong : Bytes → Bool
  | first :: second :: rest => isOverlong first second || hasOverlong (second :: rest)
  | _ => false

theorem isOverlong_iff {first second : UInt8} :
    isOverlong first second = true ↔
      0xC0 ≤ first.toNat ∧ first.toNat < 0xC2 ∨ first.toNat = 0xE0 ∧ second.toNat < 0xA0 := by
  simp [isOverlong]

theorem hasOverlong_cons {byte : UInt8} (short : byte.toNat < 0xC0) (rest : Bytes) :
    hasOverlong (byte :: rest) = hasOverlong rest := by
  cases rest with
  | nil => rfl
  | cons second rest =>
      have plain : isOverlong byte second = false := by
        rw [Bool.eq_false_iff, Ne, isOverlong_iff]
        omega
      rw [hasOverlong, plain, Bool.false_or]

variable {c : Char} {form : Bytes}

theorem Form.encodeChar (small : c.toNat < 0x10000) : Form c (String.utf8EncodeChar c) := by
  rcases Utf8.encodeChar_cases c with
    ⟨one, split⟩ | ⟨_, two, split⟩ | ⟨_, three, split⟩ | ⟨four, _, _⟩
  · rw [split]
    exact .one one
  · rw [split]
    exact .two two
  · rw [split]
    exact .three three
  · omega

/-- A form shows whether it is the shortest one, whatever follows it. -/
theorem Form.hasOverlong_append (shape : Form c form) (rest : Bytes) :
    hasOverlong (form ++ rest) = (decide (form ≠ String.utf8EncodeChar c) || hasOverlong rest) := by
  cases shape with
  | one small =>
      have first : (UInt8.ofNat c.toNat).toNat = c.toNat := Utf8.toNat_ofNat_of_lt (by omega)
      rw [Utf8.encodeChar_one small, List.singleton_append, hasOverlong_cons (by omega)]
      simp
  | two small =>
      have first : (UInt8.ofNat (c.toNat / 64 + 0xC0)).toNat = c.toNat / 64 + 0xC0 :=
        Utf8.toNat_ofNat_of_lt (by omega)
      have second : (UInt8.ofNat (c.toNat % 64 + 0x80)).toNat = c.toNat % 64 + 0x80 :=
        Utf8.toNat_ofNat_of_lt (by omega)
      rw [List.cons_append, List.singleton_append, hasOverlong, hasOverlong_cons (by omega)]
      congr 1
      rw [Bool.eq_iff_iff, isOverlong_iff, first, decide_eq_true_iff]
      by_cases shorter : c.toNat < 0x80
      · rw [Utf8.encodeChar_one shorter]
        exact iff_of_true (by omega) (by simp)
      · rw [Utf8.encodeChar_two (by omega) small]
        exact iff_of_false (by omega) (by simp)
  | three small =>
      have first : (UInt8.ofNat (c.toNat / 4096 + 0xE0)).toNat = c.toNat / 4096 + 0xE0 :=
        Utf8.toNat_ofNat_of_lt (by omega)
      have second : (UInt8.ofNat (c.toNat / 64 % 64 + 0x80)).toNat = c.toNat / 64 % 64 + 0x80 :=
        Utf8.toNat_ofNat_of_lt (by omega)
      have third : (UInt8.ofNat (c.toNat % 64 + 0x80)).toNat = c.toNat % 64 + 0x80 :=
        Utf8.toNat_ofNat_of_lt (by omega)
      rw [List.cons_append, List.cons_append, List.singleton_append, hasOverlong,
        hasOverlong_cons (by omega), hasOverlong_cons (by omega)]
      congr 1
      rw [Bool.eq_iff_iff, isOverlong_iff, first, second, decide_eq_true_iff]
      rcases Utf8.encodeChar_cases c with
        ⟨_, split⟩ | ⟨_, _, split⟩ | ⟨_, _, split⟩ | ⟨_, _, _⟩
      · rw [split]
        exact iff_of_true (by omega) (by simp)
      · rw [split]
        exact iff_of_true (by omega) (by simp)
      · rw [split]
        exact iff_of_false (by omega) (by simp)
      · omega

theorem Form.toNat_lt (shape : Form c form) : c.toNat < 0x10000 := by
  cases shape <;> omega

theorem Form.length_le (shape : Form c form) :
    (String.utf8EncodeChar c).length ≤ form.length := by
  cases shape with
  | one small => simp [Utf8.encodeChar_one small]
  | two small =>
      rcases Utf8.encodeChar_cases c with
        ⟨_, split⟩ | ⟨_, _, split⟩ | ⟨_, _, _⟩ | ⟨_, _, _⟩
      · simp [split]
      · simp [split]
      · omega
      · omega
  | three small =>
      rcases Utf8.encodeChar_cases c with
        ⟨_, split⟩ | ⟨_, _, split⟩ | ⟨_, _, split⟩ | ⟨_, _, _⟩
      · simp [split]
      · simp [split]
      · simp [split]
      · omega

variable {chars : List Char} {bytes : Bytes}

theorem written_encode (plane : ∀ c ∈ chars, c.toNat < 0x10000) :
    Written chars (Utf8.encode chars) := by
  induction chars with
  | nil => exact .nil
  | cons c chars ih =>
      obtain ⟨here, later⟩ := List.forall_mem_cons.mp plane
      exact .cons (.encodeChar here) (ih later)

theorem Written.toNat_lt (written : Written chars bytes) : ∀ c ∈ chars, c.toNat < 0x10000 := by
  induction written with
  | nil => simp
  | cons first others ih => exact List.forall_mem_cons.mpr ⟨first.toNat_lt, ih⟩

theorem Written.length_le (written : Written chars bytes) :
    (Utf8.encode chars).length ≤ bytes.length := by
  induction written with
  | nil => exact Nat.le_refl 0
  | cons first others ih =>
      have here := first.length_le
      rw [Utf8.encode_cons, List.length_append, List.length_append]
      omega

/-- A row of forms has an overlong one exactly unless it is the encoding. -/
theorem Written.hasOverlong_eq_false_iff (written : Written chars bytes) :
    hasOverlong bytes = false ↔ Utf8.encode chars = bytes := by
  induction written with
  | nil => simp [hasOverlong, Utf8.encode]
  | cons first others ih =>
      have shorter := first.length_le
      have shorter' := others.length_le
      rw [first.hasOverlong_append, Bool.or_eq_false_iff, ih, decide_eq_false_iff_not, not_not,
        Utf8.encode_cons]
      constructor
      · rintro ⟨rfl, rfl⟩
        rfl
      · intro same
        -- No form is shorter than the sequence of its character, so both are as long.
        have length := congrArg List.length same
        rw [List.length_append, List.length_append] at length
        obtain ⟨here, later⟩ := List.append_inj same (by omega)
        exact ⟨here.symm, later⟩

end Shortest

end RowStore.Text.Bmp
