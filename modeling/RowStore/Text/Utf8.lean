import RowStore.Bytes

/-! UTF-8 as Unicode defines it.

Decoding refuses overlong forms, surrogates and code points past the last one. A refusal names the
byte at which the sequence starts and how many bytes of it were well formed, or that the text ended
inside the sequence.
-/

namespace RowStore.Text.Utf8

/-- Where a byte string stops being UTF-8. Without a length, it ends inside a sequence. -/
structure Flaw where
  offset : Nat
  length : Option Nat
deriving Repr, DecidableEq

namespace Flaw

def message (flaw : Flaw) : String :=
  match flaw.length with
  | some length => s!"invalid utf-8 sequence of {length} bytes from index {flaw.offset}"
  | none => s!"incomplete utf-8 byte sequence from index {flaw.offset}"

end Flaw

/-- How a sequence goes on after its first byte: the number of further bytes, and the bounds of the
first of them. -/
def sequence? (lead : Nat) : Option (Nat × Nat × Nat) :=
  if 0xC2 ≤ lead ∧ lead ≤ 0xDF then some (1, 0x80, 0xBF)
  else if lead = 0xE0 then some (2, 0xA0, 0xBF)
  else if lead = 0xED then some (2, 0x80, 0x9F)
  else if 0xE1 ≤ lead ∧ lead ≤ 0xEF then some (2, 0x80, 0xBF)
  else if lead = 0xF0 then some (3, 0x90, 0xBF)
  else if 0xF1 ≤ lead ∧ lead ≤ 0xF3 then some (3, 0x80, 0xBF)
  else if lead = 0xF4 then some (3, 0x80, 0x8F)
  else none

/-- The payload bits of the first byte of a sequence with `count` further bytes. -/
def leadBits (count lead : Nat) : Nat := lead % (1 <<< (6 - count))

/-- Read `count` further bytes, the first of them between `low` and `high`. -/
def further (count low high taken code : Nat) (bytes : Bytes) :
    Except (Option Nat) (Nat × Bytes) :=
  match count, bytes with
  | 0, rest => .ok (code, rest)
  | _ + 1, [] => .error none
  | count + 1, byte :: rest =>
      if low ≤ byte.toNat ∧ byte.toNat ≤ high then
        further count 0x80 0xBF (taken + 1) (code * 64 + byte.toNat % 64) rest
      else .error (some taken)

theorem length_further {count low high taken code code' : Nat} {bytes rest : Bytes}
    (read : further count low high taken code bytes = .ok (code', rest)) :
    rest.length + count = bytes.length := by
  induction count generalizing low high taken code bytes with
  | zero =>
      simp only [further, Except.ok.injEq, Prod.mk.injEq] at read
      rw [read.2, Nat.add_zero]
  | succ count ih =>
      cases bytes with
      | nil => simp [further] at read
      | cons byte tail =>
          simp only [further] at read
          split at read
          · have shorter := ih read
            simp only [List.length_cons]
            omega
          · contradiction

def decodeFrom (offset : Nat) (bytes : Bytes) : Except Flaw (List Char) :=
  match bytes with
  | [] => .ok []
  | lead :: rest =>
      if lead.toNat < 0x80 then
        (decodeFrom (offset + 1) rest).map (Char.ofNat lead.toNat :: ·)
      else
        match sequence? lead.toNat with
        | none => .error ⟨offset, some 1⟩
        | some (count, low, high) =>
            match read : further count low high 1 (leadBits count lead.toNat) rest with
            | .error length => .error ⟨offset, length⟩
            | .ok (code, after) =>
                (decodeFrom (offset + 1 + count) after).map (Char.ofNat code :: ·)
termination_by bytes.length
decreasing_by
  · simp
  · have shorter := length_further read
    simp only [List.length_cons]
    omega

def decode (bytes : Bytes) : Except Flaw (List Char) := decodeFrom 0 bytes

def encode (chars : List Char) : Bytes := chars.flatMap String.utf8EncodeChar

def ofString (text : String) : Bytes := encode text.toList

def toString (bytes : Bytes) : Except Flaw String := (decode bytes).map String.ofList

end RowStore.Text.Utf8
