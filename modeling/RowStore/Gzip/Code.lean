import RowStore.Gzip.Bits

/-! Canonical codes.

A code is fixed by the lengths of its words: the words of one length are consecutive numbers, in the
order of their symbols, and follow those of the shorter words.
-/

namespace RowStore.Gzip

/-- The symbols whose words have one bit, two bits, and so on. -/
abbrev Code := List (List Nat)

namespace Code

def longest : Nat := 15

/-- How many words of the greatest length there are. -/
def room : Nat := 1 <<< longest

/-- The code whose words have the given lengths. Symbols of length zero have no word. -/
def ofLengths (lengths : List Nat) : Code :=
  (List.range' 1 longest).map fun length =>
    (lengths.zipIdx.filter (·.1 = length)).map Prod.snd

/-- How much of the code space the words take, of `room` in all. -/
def space (code : Code) : Nat :=
  code.zipIdx.foldr (fun (symbols, index) taken =>
    (symbols.length <<< (longest - 1 - index)) + taken) 0

/-- The words take all of the code space, or there is no choice between words. -/
def isComplete (code : Code) : Bool := code.space = room || code.flatten.length ≤ 1

/-- Read a word. `offset` says how many words of the length read so far lie before it, beyond those
that are complete. -/
def readFrom (offset : Nat) : Code → BitInput → Except IoFault (Nat × BitInput)
  | [], _ => .error .invalidInput
  | symbols :: longer, input => do
      let (bit, after) ← input.next
      let offset := 2 * offset + bit.toNat
      match symbols[offset]? with
      | some symbol => .ok (symbol, after)
      | none => readFrom (offset - symbols.length) longer after

def read (code : Code) (input : BitInput) : Except IoFault (Nat × BitInput) := code.readFrom 0 input

end Code

end RowStore.Gzip
