import RowStore.Bytes
import RowStore.Fault

/-! Bits of a byte string, the least significant bit of each byte first. -/

namespace RowStore.Gzip

/-- Bits left of a byte that has been started, and the bytes after it. -/
structure BitInput where
  pending : List Bool
  rest : Bytes
deriving Repr, DecidableEq

namespace BitInput

def ofBytes (bytes : Bytes) : BitInput := ⟨[], bytes⟩

/-- The number of bits left. -/
def size (input : BitInput) : Nat := input.pending.length + 8 * input.rest.length

def next (input : BitInput) : Except IoFault (Bool × BitInput) :=
  match input.pending, input.rest with
  | bit :: pending, rest => .ok (bit, ⟨pending, rest⟩)
  | [], byte :: rest =>
      .ok (byte.toNat.testBit 0, ⟨(List.range' 1 7).map byte.toNat.testBit, rest⟩)
  | [], [] => .error .unexpectedEnd

theorem size_next {input after : BitInput} {bit : Bool} (read : input.next = .ok (bit, after)) :
    after.size + 1 = input.size := by
  obtain ⟨pending, rest⟩ := input
  cases pending with
  | cons first pending =>
      simp only [next, Except.ok.injEq, Prod.mk.injEq] at read
      rw [← read.2]
      simp only [size, List.length_cons]
      omega
  | nil =>
      cases rest with
      | nil => simp [next] at read
      | cons byte rest =>
          simp only [next, Except.ok.injEq, Prod.mk.injEq] at read
          rw [← read.2]
          simp only [size, List.length_map, List.length_range', List.length_cons, List.length_nil]
          omega

/-- A number of `count` bits, the least significant one first. -/
def number (input : BitInput) : (count : Nat) → Except IoFault (Nat × BitInput)
  | 0 => .ok (0, input)
  | count + 1 => do
      let (bit, after) ← input.next
      let (high, after) ← after.number count
      .ok (bit.toNat + 2 * high, after)

/-- Whole bytes, from the next byte boundary on. -/
def bytes (input : BitInput) (count : Nat) : Except IoFault (Bytes × BitInput) :=
  if count ≤ input.rest.length then .ok (input.rest.take count, ofBytes (input.rest.drop count))
  else .error .unexpectedEnd

end BitInput

end RowStore.Gzip
