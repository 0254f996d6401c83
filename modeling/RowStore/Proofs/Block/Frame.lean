import Mathlib
import RowStore.Block.Zstandard
import RowStore.Bytes.Lemmas

/-! Frames give back the content that they were written from. -/

namespace RowStore

namespace Frame

/-- What reading goes on with behind a block. -/
def behind (last : Bool) (content rest : Bytes) : Option Bytes :=
  if last then if rest = [] then some content else none else (readBlocks? rest).map (content ++ ·)

variable {last : Bool} {type size : Nat}

theorem blockHeader_parts (last : Bool) (size : Nat) (known : type < 2) :
    blockHeader last type size / 8 = size ∧ blockHeader last type size / 2 % 4 = type ∧
      (blockHeader last type size % 2 = 1 ↔ last = true) := by
  rw [blockHeader]
  cases last <;> simp <;> omega

theorem toNat_blockHeader (known : type < 2) (fits : size ≤ blockLimit) (rest : Bytes) :
    Bytes.toNat ((Bytes.ofNat 3 (blockHeader last type size) ++ rest).take 3) =
      blockHeader last type size := by
  have small : blockHeader last type size < 256 ^ 3 := by
    simp only [blockHeader, blockLimit] at *
    split <;> omega
  rw [List.take_left' (Bytes.length_ofNat ..), Bytes.toNat_ofNat, Nat.mod_eq_of_lt small]

theorem readBlocks?_header (known : type < 2) (fits : size ≤ blockLimit) (data rest : Bytes)
    (held : data.length = if type = 1 then 1 else size) :
    readBlocks? (Bytes.ofNat 3 (blockHeader last type size) ++ (data ++ rest)) =
      behind last (if type = 1 then List.replicate size (data.headD 0) else data) rest := by
  obtain ⟨sized, typed, marked⟩ := blockHeader_parts last size known
  have length : ¬ (Bytes.ofNat 3 (blockHeader last type size) ++ (data ++ rest)).length < 3 := by
    simp
  have dropped : (Bytes.ofNat 3 (blockHeader last type size) ++ (data ++ rest)).drop 3 =
      data ++ rest := List.drop_left' (Bytes.length_ofNat ..)
  have readable : ¬ (1 < type ∨ blockLimit < size ∨
      (data ++ rest).length < if type = 1 then 1 else size) := by
    rw [List.length_append, held]
    omega
  have content : (if type = 1 then List.replicate size ((data ++ rest).headD 0)
        else (data ++ rest).take size) =
      if type = 1 then List.replicate size (data.headD 0) else data := by
    split_ifs with repeated
    · rw [if_pos repeated] at held
      obtain ⟨byte, rfl⟩ := List.length_eq_one_iff.mp held
      rfl
    · rw [if_neg repeated] at held
      exact List.take_left' held
  rw [readBlocks?, if_neg length, toNat_blockHeader known fits, dropped]
  dsimp only
  rw [sized, typed, if_neg readable, content, behind, ← held, List.drop_left, List.length_append]
  have ends : data.length + rest.length = data.length ↔ rest = [] := by simp
  simp only [marked, ends]

theorem expand_of_uniform? {block : Pieces} {byte : UInt8} (uniform : block.uniform? = some byte) :
    block.expand = List.replicate block.size byte := by
  rw [Pieces.uniform?_eq, Option.filter_eq_some_iff] at uniform
  rw [List.eq_replicate_iff, Pieces.length_expand]
  refine ⟨rfl, fun other mem => ?_⟩
  simpa using List.all_eq_true.mp uniform.2 other mem

theorem readBlocks?_writeBlock {block : Pieces} (fits : block.size ≤ blockLimit) (rest : Bytes) :
    readBlocks? (writeBlock last block ++ rest) = behind last block.expand rest := by
  rw [writeBlock]
  cases uniform : block.uniform? with
  | some byte =>
      dsimp only
      rw [List.append_assoc, readBlocks?_header (by decide) fits [byte] rest rfl,
        expand_of_uniform? uniform]
      rfl
  | none =>
      dsimp only
      rw [List.append_assoc, readBlocks?_header (by decide) fits _ _ (Pieces.length_expand block)]
      rfl

theorem readBlocks?_writeBlocks (content : Pieces) :
    readBlocks? (writeBlocks content) = some content.expand := by
  fun_induction writeBlocks content with
  | case1 content short =>
      rw [← List.append_nil (writeBlock true content), readBlocks?_writeBlock short]
      rfl
  | case2 content long ih =>
      have fits : (content.front blockLimit).size ≤ blockLimit := by
        rw [← Pieces.length_expand, Pieces.expand_front]
        exact List.length_take_le _ _
      rw [readBlocks?_writeBlock fits, behind, if_neg Bool.false_ne_true, ih, Option.map_some,
        Pieces.expand_front, Pieces.expand_back, List.take_append_drop]

/-- A content whose size stands in eight bytes is what its frame expands to. -/
theorem expand_write {content : Pieces} (sized : content.size < 256 ^ 8) :
    expand content.size (write content) = .ok content.expand := by
  have shape : write content =
      (magic ++ [descriptor]) ++ (Bytes.ofNat 8 content.size ++ writeBlocks content) := by
    simp [write]
  have marked : (write content).take 5 = magic ++ [descriptor] := by
    rw [shape]
    exact List.take_left' rfl
  have unmarked : (write content).drop 5 = Bytes.ofNat 8 content.size ++ writeBlocks content := by
    rw [shape]
    exact List.drop_left' rfl
  have blocks : (write content).drop 13 = writeBlocks content := by
    rw [← List.drop_drop (i := 8) (j := 5), unmarked]
    exact List.drop_left' (Bytes.length_ofNat ..)
  have number : Bytes.toNat (((write content).drop 5).take 8) = content.expand.length := by
    rw [unmarked, List.take_left' (Bytes.length_ofNat ..), Bytes.toNat_ofNat, Nat.mod_eq_of_lt sized,
      Pieces.length_expand]
  have read : read? (write content) = some content.expand := by
    rw [read?, if_pos marked, blocks, readBlocks?_writeBlocks, Option.bind_eq_bind, Option.bind_some,
      if_pos number]
  have occupied : (write content).isEmpty = false := by
    rw [shape]
    rfl
  rw [expand, occupied, read]
  dsimp only
  rw [if_neg Bool.false_ne_true, if_pos (Pieces.length_expand content).le]

end Frame

theorem BlockCodec.expand_zstandard {level : Int} {rowLength : Nat} {raw : Bytes}
    {stored : StoredBlock} (sized : raw.length < 256 ^ 8)
    (compressed : (zstandard Frame.coder level).compress rowLength raw = .ok stored) :
    (zstandard Frame.coder level).expand rowLength raw.length stored = .ok raw := by
  obtain rfl : ⟨[], Frame.write [.plain raw]⟩ = stored := Except.ok.inj compressed
  have size : Pieces.size [.plain raw] = raw.length := rfl
  rw [← size] at sized
  have expanded := Frame.expand_write sized
  rwa [Pieces.expand_plain] at expanded

end RowStore
