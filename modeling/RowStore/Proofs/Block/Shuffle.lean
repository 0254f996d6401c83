import Mathlib
import RowStore.Block.Scatter
import RowStore.Proofs.Block.Frame
import RowStore.Proofs.Block.Transpose
import RowStore.Proofs.Trapping

/-! Shuffled blocks are restored.

Byte by byte, every write of a shuffle agrees with the block that it comes to in the end, and every
place of that block is written. So no write misses the block, and nothing is left of the zeros it was
started with. The width in the sidecar is all it takes to go back.
-/

namespace RowStore

open Outcome (Traps bind_eq_ok_iff)

namespace Shuffle

variable {target block bytes : Bytes} {places : Nat → Prop} {rows width : Nat}

section Loops

/-- A block that is as long as the target and agrees with it at some places. -/
structure Settled (target : Bytes) (places : Nat → Prop) (block : Bytes) : Prop where
  length : block.length = target.length
  agrees : ∀ place, places place → block[place]? = target[place]?

theorem Settled.mono {fewer : Nat → Prop} (settled : Settled target places block)
    (among : ∀ place, fewer place → places place) : Settled target fewer block :=
  ⟨settled.length, fun place found => settled.agrees place (among place found)⟩

/-- A byte of the target is written to its place, where the block then agrees as well. -/
theorem Settled.store {place : Nat} {byte : UInt8} (settled : Settled target places block)
    (found : target[place]? = some byte) :
    ∃ next, store place byte block = .ok next ∧
      Settled target (fun other => places other ∨ other = place) next := by
  have inside : place < block.length := by
    rw [settled.length]
    exact (List.getElem?_eq_some_iff.mp found).1
  refine ⟨block.set place byte, if_pos inside, ?_, fun other among => ?_⟩
  · rw [List.length_set, settled.length]
  · by_cases same : other = place
    · rw [same, List.getElem?_set_self inside, found]
    · rw [List.getElem?_set_ne (Ne.symm same)]
      exact settled.agrees other (among.resolve_right same)

/-- If every step adds the places that its element reaches, a run adds those of all elements. -/
theorem Settled.storeEach {α : Type} (step : Nat → α → Bytes → Except Fault Bytes)
    (reaches : Nat → α → Nat → Prop) (list : List α) (number : Nat)
    (settled : Settled target places block)
    (steps : ∀ index item, list[index]? = some item → ∀ places block, Settled target places block →
      ∃ next, step (number + index) item block = .ok next ∧
        Settled target (fun other => places other ∨ reaches (number + index) item other) next) :
    ∃ last, storeEach step number list block = .ok last ∧
      Settled target (fun other => places other ∨
        ∃ index item, list[index]? = some item ∧ reaches (number + index) item other) last := by
  have shift (index : Nat) : number + (index + 1) = number + 1 + index := by omega
  induction list generalizing number block places with
  | nil =>
      refine ⟨block, rfl, settled.mono ?_⟩
      rintro other (among | ⟨_, _, found, -⟩)
      · exact among
      · cases found
  | cons item rest ih =>
      obtain ⟨next, stepped, more⟩ := steps 0 item rfl places block settled
      obtain ⟨last, run, all⟩ := ih (number + 1) more (fun index item found => by
        rw [← shift]
        exact steps (index + 1) item found) fun index => by omega
      rw [Nat.add_zero] at stepped
      refine ⟨last, by rw [Shuffle.storeEach, stepped]; exact run, all.mono ?_⟩
      rintro other (among | ⟨index, item', found, reached⟩)
      · exact .inl (.inl among)
      · cases index with
        | zero =>
            cases found
            exact .inl (.inr reached)
        | succ index =>
            rw [shift] at reached
            exact .inr ⟨index, item', found, reached⟩

/-- The places that the bytes of a piece are written to. -/
def Reached (place : Nat → Nat) (piece : Bytes) (other : Nat) : Prop :=
  ∃ (index : Nat) (byte : UInt8), piece[index]? = some byte ∧ other = place index

theorem Settled.storePiece {place : Nat → Nat} {piece : Bytes} (settled : Settled target places block)
    (writes : ∀ (index : Nat) (byte : UInt8), piece[index]? = some byte →
      target[place index]? = some byte) :
    ∃ next, Shuffle.storeEach (fun index => Shuffle.store (place index)) 0 piece block = .ok next ∧
      Settled target (fun other => places other ∨ Reached place piece other) next := by
  have run := settled.storeEach (fun index => Shuffle.store (place index))
    (fun index _ other => other = place index) piece 0
    fun index byte found places block settled => by
      rw [Nat.zero_add]
      exact settled.store (writes index byte found)
  simp only [Nat.zero_add] at run
  exact run

/-- Writes that agree with a target and leave none of its places out come to the target. -/
theorem scatter_eq {place : Nat → Nat → Nat} {pieces : List Bytes}
    (writes : ∀ (number : Nat) (piece : Bytes), pieces[number]? = some piece →
      ∀ (index : Nat) (byte : UInt8), piece[index]? = some byte →
        target[place number index]? = some byte)
    (covers : ∀ other < target.length, ∃ (number : Nat) (piece : Bytes),
      pieces[number]? = some piece ∧ Reached (place number) piece other) :
    scatter place pieces target.length = .ok target := by
  have blank : Settled target (fun _ => False) (List.replicate target.length 0) :=
    ⟨List.length_replicate, fun _ none => none.elim⟩
  obtain ⟨last, run, length, agrees⟩ := blank.storeEach
    (fun number => storeEach (fun index => store (place number index)) 0)
    (fun number piece other => Reached (place number) piece other) pieces 0
    fun number piece found places block settled => by
      rw [Nat.zero_add]
      exact settled.storePiece (writes number piece found)
  rw [scatter, run, Except.ok.injEq]
  refine List.ext_getElem? fun other => ?_
  rcases lt_or_ge other target.length with inside | beyond
  · obtain ⟨number, piece, found, reached⟩ := covers other inside
    rw [← Nat.zero_add number] at reached
    exact agrees other (.inr ⟨number, piece, found, reached⟩)
  · rw [List.getElem?_eq_none beyond, List.getElem?_eq_none (length.trans_le beyond)]

end Loops

section Transposed

/-- Rows that are written byte by byte to where the columns go come to the exchanged block. -/
theorem scatter_transpose (length : bytes.length = rows * width) :
    scatter (fun row k => k * rows + row) (pieces width rows bytes) bytes.length =
      .ok (transpose rows width bytes) := by
  have whole : bytes.length = (transpose rows width bytes).length :=
    (transpose_perm length).length_eq.symm
  rw [whole]
  refine scatter_eq (fun row piece found k byte held => ?_) fun other inside => ?_
  · have inRows : row < rows := by
      rw [← length_pieces width rows bytes]
      exact (List.getElem?_eq_some_iff.mp found).1
    have inRow : k < width := by
      rw [← length_of_mem_pieces length.ge piece (List.mem_of_getElem? found)]
      exact (List.getElem?_eq_some_iff.mp held).1
    rw [getElem?_pieces inRows] at found
    rw [getElem?_transpose length inRows inRow, ← held, ← Option.some.inj found,
      List.getElem?_take_of_lt inRow, List.getElem?_drop]
  · rw [length_transpose length, Nat.mul_comm] at inside
    obtain ⟨k, inRow, row, inRows, rfl⟩ := exists_row_and_place inside
    have found : (pieces width rows bytes)[row]? = some _ := getElem?_pieces inRows bytes
    have sized := length_of_mem_pieces length.ge _ (List.mem_of_getElem? found)
    exact ⟨row, _, found, k, _, List.getElem?_eq_getElem (sized.symm ▸ inRow), rfl⟩

variable {raw shuffled : Bytes}

theorem chunks_eq_ok {size : Nat} (positive : 0 < size) (bytes : Bytes) :
    chunks size bytes = .ok (pieces size (bytes.length / size) bytes) := if_neg positive.ne'

theorem scatterRows_eq (positive : 0 < width) (divides : width ∣ raw.length) :
    scatterRows width raw = .ok (shuffle width raw) :=
  bind_eq_ok_iff.mpr ⟨_, chunks_eq_ok positive raw, scatter_transpose (length_eq_mul divides)⟩

theorem scatterPlanes_eq (positive : 0 < width) (divides : width ∣ shuffled.length) :
    scatterPlanes width shuffled = .ok (unshuffle width shuffled) := by
  rw [scatterPlanes, if_neg positive.ne', unshuffle_eq_transpose divides, bind_eq_ok_iff]
  refine ⟨_, chunks_eq_ok (Nat.le_max_right _ _) shuffled, ?_⟩
  rcases Nat.eq_zero_or_pos (shuffled.length / width) with none | some
  · -- Planes of no bytes cannot be gone through, so one byte stands in for their length.
    have empty : shuffled = [] := by
      rw [← List.length_eq_zero_iff, length_eq_mul divides, none, Nat.zero_mul]
    subst empty
    rw [none, List.length_nil, Nat.zero_div, pieces, List.take_nil, transpose, planes]
    rfl
  · have count : shuffled.length / (shuffled.length / width) = width :=
      Nat.div_div_self divides fun empty => by simp [empty] at some
    rw [max_eq_left some, count, List.take_of_length_le (length_pieces ..).le]
    exact scatter_transpose ((length_eq_mul divides).trans (Nat.mul_comm _ _))

end Transposed

section Stride

variable {length rowLength limit : Nat}

theorem stride_dvd (length rowLength : Nat) : stride length rowLength ∣ length := by
  rw [stride]
  split_ifs with whole
  · exact Nat.dvd_of_mod_eq_zero whole.2
  · exact Nat.one_dvd length

theorem stride_lt (bounded : rowLength < limit) (plural : 1 < limit) :
    stride length rowLength < limit := by
  rw [stride]
  split_ifs <;> assumption

end Stride

end Shuffle

/-- A frame of a length of content, if it is written, gives that content back. -/
def FrameCoder.Restores (coder : FrameCoder) (level : Int) (length : Nat) : Prop :=
  ∀ content frame, content.length = length → coder.compress level content = .ok frame →
    coder.expand length frame = .ok content

namespace BlockCodec

variable {coder : FrameCoder} {level : Int} {rowLength rawLength width : Nat} {raw content : Bytes}
  {stored : StoredBlock}

open Shuffle

/-- Moving every byte by itself is shuffling, and no byte is moved out of the block. -/
theorem scattered_eq (coder : FrameCoder) (level : Int) :
    scattered coder level = shuffled coder level := by
  rw [scattered, shuffled, BlockCodec.mk.injEq]
  refine ⟨rfl, rfl, ?_, ?_⟩
  · funext rowLength raw
    dsimp only
    split_ifs with wide
    · rw [scatterRows_eq (Nat.zero_lt_of_lt wide) (stride_dvd _ _)]
      rfl
    · rfl
  · funext _ rawLength stored
    refine if_congr Iff.rfl rfl (Outcome.bind_congr fun content _ => ?_)
    split_ifs with wide whole
    · exact scatterPlanes_eq (Nat.zero_lt_of_lt wide) (Nat.dvd_of_mod_eq_zero whole)
    · rfl
    · rfl

/-- The width in the sidecar tells how to go back. -/
theorem expand_shuffled {frame : Bytes} (numbered : width < 256 ^ 4) (divides : width ∣ raw.length)
    (expanded : coder.expand rawLength frame = .ok (if 1 < width then shuffle width raw else raw)) :
    (shuffled coder level).expand rowLength rawLength ⟨Bytes.ofNat 4 width, frame⟩ = .ok raw := by
  have length := Bytes.length_ofNat 4 width
  have read : Bytes.toNat ((Bytes.ofNat 4 width).take 4) = width := by
    rw [List.take_of_length_le length.le, Bytes.toNat_ofNat, Nat.mod_eq_of_lt numbered]
  simp only [shuffled, length, lt_irrefl, if_false, read]
  refine bind_eq_ok_iff.mpr ⟨_, expanded, ?_⟩
  split_ifs with wide whole
  · rw [unshuffle_shuffle divides]
  · rw [(shuffle_perm divides).length_eq] at whole
    exact absurd (Nat.mod_eq_zero_of_dvd divides) whole
  · rfl

/-- A shuffled block is restored, unless its content could not be compressed. -/
theorem shuffled_restores (bounded : rowLength < 256 ^ 4)
    (restores : coder.Restores level raw.length) :
    (∃ content fault, content.Perm raw ∧ coder.compress level content = .error fault ∧
      (shuffled coder level).compress rowLength raw = .error fault) ∨
    ∃ stored, (shuffled coder level).compress rowLength raw = .ok stored ∧
      ∀ rowLength', (shuffled coder level).expand rowLength' raw.length stored = .ok raw := by
  have divides := stride_dvd raw.length rowLength
  generalize same : stride raw.length rowLength = width at divides
  have numbered : width < 256 ^ 4 := same ▸ stride_lt bounded (by decide)
  have compressed : (shuffled coder level).compress rowLength raw =
      (coder.compress level (if 1 < width then shuffle width raw else raw) >>= fun frame =>
        .ok ⟨Bytes.ofNat 4 width, frame⟩) := by
    rw [← same]
    rfl
  have moved : (if 1 < width then shuffle width raw else raw).Perm raw := by
    split_ifs
    · exact shuffle_perm divides
    · exact .refl raw
  rw [compressed]
  cases result : coder.compress level (if 1 < width then shuffle width raw else raw) with
  | error fault => exact .inl ⟨_, fault, moved, result, rfl⟩
  | ok frame =>
      have expanded := restores _ frame moved.length_eq result
      exact .inr ⟨_, rfl, fun _ => expand_shuffled numbered divides expanded⟩

/-- Whatever the sidecar says, a block is refused or has the bytes of its content, in some order. -/
theorem expand_shuffled_of_foreign (expanded : coder.expand rawLength stored.payload = .ok content) :
    ¬ Traps Fault.trap ((shuffled coder level).expand rowLength rawLength stored) ∧
    ∀ restored, (shuffled coder level).expand rowLength rawLength stored = .ok restored →
      restored.Perm content := by
  simp only [shuffled, expanded, bind, Except.bind]
  split_ifs with short wide whole
  · exact ⟨by simp [Traps, Fault.trap], fun _ same => nomatch same⟩
  · refine ⟨Outcome.not_traps_ok, fun restored same => ?_⟩
    cases same
    exact unshuffle_perm (Nat.dvd_of_mod_eq_zero whole)
  · exact ⟨by simp [Traps, Fault.trap], fun _ same => nomatch same⟩
  · refine ⟨Outcome.not_traps_ok, fun restored same => ?_⟩
    cases same
    exact .refl _

/-- Shuffling puts the bytes at one place of all rows next to each other, and the sidecar undoes it.
Another sidecar makes no more of a frame than its bytes in some order. Moved by itself, every byte
comes to the same place, and none is moved out of the block. -/
theorem shuffled_exact (coder : FrameCoder) (level : Int) :
    scattered coder level = shuffled coder level ∧
    (∀ (rowLength : UInt32) (raw : Bytes), coder.Restores level raw.length →
      (∃ content fault, content.Perm raw ∧ coder.compress level content = .error fault ∧
        (shuffled coder level).compress rowLength.toNat raw = .error fault) ∨
      ∃ stored, (shuffled coder level).compress rowLength.toNat raw = .ok stored ∧
        ∀ rowLength', (shuffled coder level).expand rowLength' raw.length stored = .ok raw) ∧
    (∀ (width : Nat) (raw : Bytes), width ∣ raw.length →
      (shuffle width raw).Perm raw ∧
      (∀ row < raw.length / width, ∀ k < width,
        (shuffle width raw)[k * (raw.length / width) + row]? = raw[row * width + k]?) ∧
      unshuffle width (shuffle width raw) = raw ∧
      (0 < width → scatterRows width raw = .ok (shuffle width raw) ∧
        scatterPlanes width raw = .ok (unshuffle width raw))) ∧
    ∀ (rowLength rawLength : Nat) (stored : StoredBlock) (content : Bytes),
      coder.expand rawLength stored.payload = .ok content →
      ¬ Traps Fault.trap ((scattered coder level).expand rowLength rawLength stored) ∧
      ∀ restored, (scattered coder level).expand rowLength rawLength stored = .ok restored →
        restored.Perm content := by
  refine ⟨scattered_eq coder level, fun rowLength raw restores => ?_, fun width raw divides => ?_,
    fun rowLength rawLength stored content expanded => ?_⟩
  · exact shuffled_restores rowLength.toNat_lt restores
  · exact ⟨shuffle_perm divides, fun row inRows k inRow => getElem?_shuffle divides inRows inRow,
      unshuffle_shuffle divides,
      fun positive => ⟨scatterRows_eq positive divides, scatterPlanes_eq positive divides⟩⟩
  · rw [scattered_eq]
    exact expand_shuffled_of_foreign expanded

/-- Two rows of three bytes, and their frame with the width of rows of two bytes. -/
theorem shuffled_exact_two_rows :
    (∃ stored, (shuffled Frame.coder 3).compress 3 [1, 2, 3, 4, 5, 6] = .ok stored ∧
      (shuffled Frame.coder 3).expand 0 6 stored = .ok [1, 2, 3, 4, 5, 6]) ∧
    unshuffle 3 (shuffle 3 [1, 2, 3, 4, 5, 6]) = [1, 2, 3, 4, 5, 6] ∧
    ¬ Traps Fault.trap ((scattered Frame.coder 3).expand 0 6
      ⟨[2, 0, 0, 0], Frame.write [.plain [1, 4, 2, 5, 3, 6]]⟩) := by
  have expanded (content : Bytes) (length : content.length = 6) :
      Frame.coder.expand 6 (Frame.write [.plain content]) = .ok content := by
    have size : Pieces.size [.plain content] = 6 := length
    have written := Frame.expand_write (size.trans_lt (by decide))
    rwa [Pieces.expand_plain, size] at written
  obtain ⟨-, restores, exact, foreign⟩ := shuffled_exact Frame.coder 3
  refine ⟨?_, (exact 3 _ (by decide)).2.2.1, (foreign 0 6 _ _ (expanded _ rfl)).1⟩
  rcases restores 3 [1, 2, 3, 4, 5, 6] (fun content frame length compressed => by
      cases compressed
      exact expanded content length) with ⟨_, _, -, refused, -⟩ | ⟨stored, compressed, restored⟩
  · cases refused
  · exact ⟨stored, compressed, restored 0⟩

end BlockCodec

end RowStore
