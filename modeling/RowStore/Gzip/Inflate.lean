import RowStore.Gzip.Code

/-! The compressed body of a gzip member.

The body is a run of blocks. A stored block holds bytes as they are; the others hold words of two
codes, which are either fixed or sent in front of the words. A word is a byte, the end of the block,
or a length, which a distance follows: that many bytes are repeated from that far back. The output
is held with its last byte first.
-/

namespace RowStore.Gzip

structure Output where
  reversed : Bytes
  length : Nat
deriving Repr, DecidableEq

namespace Output

def push (output : Output) (byte : UInt8) : Output := ⟨byte :: output.reversed, output.length + 1⟩

def append (output : Output) (bytes : Bytes) : Output :=
  ⟨bytes.reverse ++ output.reversed, output.length + bytes.length⟩

def copyBack (output : Output) (distance count : Nat) : Output :=
  ⟨Bytes.copyBack distance count output.reversed, output.length + count⟩

end Output

/-- Least value and number of further bits for each word that is a length. -/
def lengthWords : List (Nat × Nat) := [
  (3, 0), (4, 0), (5, 0), (6, 0), (7, 0), (8, 0), (9, 0), (10, 0), (11, 1), (13, 1), (15, 1),
  (17, 1), (19, 2), (23, 2), (27, 2), (31, 2), (35, 3), (43, 3), (51, 3), (59, 3), (67, 4), (83, 4),
  (99, 4), (115, 4), (131, 5), (163, 5), (195, 5), (227, 5), (258, 0)]

def distanceWords : List (Nat × Nat) := [
  (1, 0), (2, 0), (3, 0), (4, 0), (5, 1), (7, 1), (9, 2), (13, 2), (17, 3), (25, 3), (33, 4),
  (49, 4), (65, 5), (97, 5), (129, 6), (193, 6), (257, 7), (385, 7), (513, 8), (769, 8), (1025, 9),
  (1537, 9), (2049, 10), (3073, 10), (4097, 11), (6145, 11), (8193, 12), (12289, 12), (16385, 13),
  (24577, 13)]

def readValue (words : List (Nat × Nat)) (word : Nat) (input : BitInput) :
    Except IoFault (Nat × BitInput) :=
  match words[word]? with
  | none => .error .invalidInput
  | some (least, bits) => (input.number bits).map fun (more, after) => (least + more, after)

structure Codes where
  literals : Code
  distances : Code

namespace Codes

def ofLengths (literals distances : List Nat) : Except IoFault Codes :=
  let codes : Codes := ⟨.ofLengths literals, .ofLengths distances⟩
  if codes.literals.isComplete && codes.distances.isComplete then .ok codes
  else .error .invalidInput

def fixed : Codes where
  literals := .ofLengths (List.replicate 144 8 ++ List.replicate 112 9 ++ List.replicate 24 7 ++
    List.replicate 8 8)
  distances := .ofLengths (List.replicate 30 5)

/-- The order in which the lengths of the code for lengths are sent. -/
def lengthOrder : List Nat := [16, 17, 18, 0, 8, 7, 9, 6, 10, 5, 11, 4, 12, 3, 13, 2, 14, 1, 15]

/-- The lengths of the code for lengths, three bits each. -/
def readSmallLengths (input : BitInput) : (count : Nat) → Except IoFault (List Nat × BitInput)
  | 0 => .ok ([], input)
  | count + 1 => do
      let (length, after) ← input.number 3
      let (lengths, after) ← readSmallLengths after count
      .ok (length :: lengths, after)

/-- The lengths that one word stands for: itself, or repetitions of the last one or of zero. -/
def readRun (word : Nat) (last : Option Nat) (input : BitInput) :
    Except IoFault (List Nat × BitInput) :=
  if word < 16 then .ok ([word], input)
  else if word = 16 then
    match last with
    | none => .error .invalidInput
    | some length => (input.number 2).map fun (more, after) => (List.replicate (3 + more) length, after)
  else if word = 17 then
    (input.number 3).map fun (more, after) => (List.replicate (3 + more) 0, after)
  else (input.number 7).map fun (more, after) => (List.replicate (11 + more) 0, after)

/-- Exactly `count` lengths, collected with the last one first. Every word adds one at least. -/
def readLengths (code : Code) (count : Nat) (input : BitInput) (lengths : List Nat) :
    (steps : Nat) → Except IoFault (List Nat × BitInput)
  | 0 => if lengths.length = count then .ok (lengths.reverse, input) else .error .invalidInput
  | steps + 1 =>
      if count ≤ lengths.length then readLengths code count input lengths 0
      else do
        let (word, after) ← code.read input
        let (run, after) ← readRun word lengths.head? after
        readLengths code count after (run.reverse ++ lengths) steps

/-- The codes sent in front of a block. -/
def read (input : BitInput) : Except IoFault (Codes × BitInput) := do
  let (literals, input) ← input.number 5
  let (distances, input) ← input.number 5
  let (small, input) ← input.number 4
  if 29 < literals ∨ 29 < distances then throw .invalidInput
  let (sent, input) ← readSmallLengths input (small + 4)
  let small := .ofLengths ((List.range 19).map fun symbol =>
    (lengthOrder.zip sent).lookup symbol |>.getD 0)
  if !Code.isComplete small then throw .invalidInput
  let count := literals + 257
  let total := count + distances + 1
  let (lengths, input) ← readLengths small total input [] total
  let codes ← ofLengths (lengths.take count) (lengths.drop count)
  .ok (codes, input)

end Codes

/-- Words up to the end of a block. Every word takes one bit at least, so as many steps as there are
bits are enough. -/
def readWords (codes : Codes) (output : Output) (input : BitInput) :
    (steps : Nat) → Except IoFault (Output × BitInput)
  | 0 => .error .unexpectedEnd
  | steps + 1 => do
      let (word, input) ← codes.literals.read input
      if word < 256 then readWords codes (output.push (UInt8.ofNat word)) input steps
      else if word = 256 then .ok (output, input)
      else do
        let (length, input) ← readValue lengthWords (word - 257) input
        let (word, input) ← codes.distances.read input
        let (distance, input) ← readValue distanceWords word input
        if output.length < distance then .error .invalidInput
        else readWords codes (output.copyBack distance length) input steps

/-- A stored block: its length, the complement of its length, and its bytes. -/
def readStored (output : Output) (input : BitInput) : Except IoFault (Output × BitInput) := do
  let (length, input) ← input.bytes 2
  let (check, input) ← input.bytes 2
  if Bytes.toNat length + Bytes.toNat check ≠ 0xFFFF then throw .invalidInput
  let (bytes, input) ← input.bytes (Bytes.toNat length)
  .ok (output.append bytes, input)

def readBlock (kind : Nat) (output : Output) (input : BitInput) :
    Except IoFault (Output × BitInput) :=
  match kind with
  | 0 => readStored output input
  | 1 => readWords .fixed output input input.size
  | 2 => do
      let (codes, input) ← Codes.read input
      readWords codes output input input.size
  | _ => .error .invalidInput

/-- Blocks up to the last one. Every block takes three bits at least. -/
def readBlocks (output : Output) (input : BitInput) :
    (steps : Nat) → Except IoFault (Output × BitInput)
  | 0 => .error .unexpectedEnd
  | steps + 1 => do
      let (last, input) ← input.next
      let (kind, input) ← input.number 2
      let (output, input) ← readBlock kind output input
      if last then .ok (output, input) else readBlocks output input steps

/-- Expand a body. The bytes after it are returned too. -/
def inflate (bytes : Bytes) : Except IoFault (Bytes × Bytes) := do
  let input := BitInput.ofBytes bytes
  let (output, input) ← readBlocks ⟨[], 0⟩ input input.size
  .ok (output.reversed.reverse, input.rest)

end RowStore.Gzip
