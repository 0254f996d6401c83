import RowStore.Block.Codec
import RowStore.Bytes.Pieces

/-! Zstandard frames whose content is written out, or repeats.

A frame is a magic number, a descriptor, the content size in eight bytes and blocks of at most
128 KiB, each behind three bytes with its size, its type and a mark on the last one. A block whose
bytes are all the same holds one of them. No bytes at all are no frames, and expand to nothing.
-/

namespace RowStore.Frame

def magic : Bytes := [0x28, 0xB5, 0x2F, 0xFD]

/-- One segment, content size in eight bytes, no checksum, no dictionary. -/
def descriptor : UInt8 := 0xE0

def blockLimit : Nat := 131072

/-- The number before a block: its size, its type (0 for written out, 1 for repeated), the mark. -/
def blockHeader (last : Bool) (type size : Nat) : Nat :=
  8 * size + 2 * type + if last then 1 else 0

def writeBlock (last : Bool) (block : Pieces) : Bytes :=
  match block.uniform? with
  | some byte => Bytes.ofNat 3 (blockHeader last 1 block.size) ++ [byte]
  | none => Bytes.ofNat 3 (blockHeader last 0 block.size) ++ block.expand

def writeBlocks (content : Pieces) : Bytes :=
  if content.size ≤ blockLimit then writeBlock true content
  else writeBlock false (content.front blockLimit) ++ writeBlocks (content.back blockLimit)
termination_by content.size
decreasing_by
  rw [Pieces.size_back]
  simp only [blockLimit] at *
  omega

def write (content : Pieces) : Bytes :=
  magic ++ descriptor :: Bytes.ofNat 8 content.size ++ writeBlocks content

/-- The content of the blocks, if the last one ends the bytes. -/
def readBlocks? (bytes : Bytes) : Option Bytes :=
  if bytes.length < 3 then none
  else
    let header := Bytes.toNat (bytes.take 3)
    let type := header / 2 % 4
    let size := header / 8
    let rest := bytes.drop 3
    let held := if type = 1 then 1 else size
    if 1 < type ∨ blockLimit < size ∨ rest.length < held then none
    else
      let content := if type = 1 then List.replicate size (rest.headD 0) else rest.take size
      if header % 2 = 1 then if rest.length = held then some content else none
      else (readBlocks? (rest.drop held)).map (content ++ ·)
termination_by bytes.length
decreasing_by
  simp only [List.length_drop]
  omega

def read? (bytes : Bytes) : Option Bytes := do
  if bytes.take 5 = magic ++ [descriptor] then
    let content ← readBlocks? (bytes.drop 13)
    if Bytes.toNat ((bytes.drop 5).take 8) = content.length then some content else none
  else none

/-- A frame that is none, or that is longer than it may be, cannot be expanded. -/
def expand (limit : Nat) (bytes : Bytes) : Except Fault Bytes :=
  if bytes.isEmpty then .ok []
  else
    match read? bytes with
    | some content => if content.length ≤ limit then .ok content else .error (.io .other)
    | none => .error (.io .other)

section Pieces

variable {content other : Pieces}

theorem writeBlock_congr (last : Bool) (same : content.expand = other.expand) :
    writeBlock last content = writeBlock last other := by
  rw [writeBlock, writeBlock, Pieces.uniform?_congr same, Pieces.size_congr same, same]

theorem writeBlocks_congr (same : content.expand = other.expand) :
    writeBlocks content = writeBlocks other := by
  fun_induction writeBlocks content generalizing other with
  | case1 content short =>
      rw [writeBlocks, ← Pieces.size_congr same, if_pos short, writeBlock_congr true same]
  | case2 content long ih =>
      have fronts : (content.front blockLimit).expand = (other.front blockLimit).expand := by
        rw [Pieces.expand_front, Pieces.expand_front, same]
      have backs : (content.back blockLimit).expand = (other.back blockLimit).expand := by
        rw [Pieces.expand_back, Pieces.expand_back, same]
      rw [Pieces.size_congr same] at long
      rw [writeBlock_congr false fronts, ih backs, writeBlocks.eq_def other, if_neg long]

/-- How a content is in pieces does not matter for its frame. -/
theorem write_congr (same : content.expand = other.expand) : write content = write other := by
  rw [write, write, Pieces.size_congr same, writeBlocks_congr same]

end Pieces

def coder : FrameCoder where
  compress _ content := .ok (write [.plain content])
  expand := expand

end RowStore.Frame
