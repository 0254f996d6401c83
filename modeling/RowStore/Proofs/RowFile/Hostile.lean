import Mathlib
import RowStore.Block.Catalog
import RowStore.Environment
import RowStore.Proofs.Trapping
import RowStore.RowFile.Reading

/-! Files that say anything.

Whatever bytes are taken for a row file, reading it ends in an answer or a refusal, but for the
arithmetic on what its header and its block index say, and the room that they ask for. What is said here
is which files trap, and at which step. How much room there is, and what is inside the codecs, is left
open.
-/

namespace RowStore

open Outcome (Traps)

section Codecs

/-- A frame is expanded or refused, whatever its bytes are. -/
def FrameCoder.Answers (coder : FrameCoder) : Prop :=
  ∀ limit frame, ¬ Traps Fault.trap (coder.expand limit frame)

/-- A block is expanded or refused, whatever its bytes are. -/
def SizedCoder.Answers (coder : SizedCoder) : Prop :=
  ∀ block, ¬ Traps Fault.trap (coder.expand block)

/-- A codec whose blocks are expanded or refused. -/
def BlockCodec.Answers (codec : BlockCodec) : Prop :=
  ∀ rowLength rawLength stored, ¬ Traps Fault.trap (codec.expand rowLength rawLength stored)

variable {frames : FrameCoder} {blocks : SizedCoder} {level : Int} {codec : BlockCodec}

theorem Lz4.answers_coder : Lz4.coder.Answers := by
  intro block
  have unfolded : Lz4.coder.expand block = expand block := rfl
  rw [unfolded, expand]
  split_ifs
  · simp [Traps, Fault.trap]
  · split <;> simp [Traps, Fault.trap]

theorem Frame.answers_coder : Frame.coder.Answers := by
  intro limit frame
  have unfolded : Frame.coder.expand limit frame = expand limit frame := rfl
  rw [unfolded, expand]
  split_ifs
  · simp [Traps]
  · split
    · split_ifs <;> simp [Traps, Fault.trap]
    · simp [Traps, Fault.trap]

namespace BlockCodec

/-- The codecs that come with the library, around any coders. -/
def bundled (frames : FrameCoder) (blocks : SizedCoder) (level : Int) : List BlockCodec :=
  [passthrough, zstandard frames level, lz4 blocks, shuffled frames level]

theorem mem_bundled_of_ofId {id : Nat} (known : ofId id = .ok codec) :
    codec ∈ bundled Frame.coder Lz4.coder defaultLevel := by
  rw [ofId.eq_def] at known
  split at known
  all_goals cases known
  all_goals simp [bundled]

theorem mem_bundled_of_ofName {name : String} (known : ofName name level = .ok codec) :
    codec ∈ bundled Frame.coder Lz4.coder level := by
  rw [ofName] at known
  split_ifs at known
  all_goals cases known
  all_goals simp [bundled]

/-- Where coders answer, so do the codecs around them. -/
theorem answers_of_mem_bundled (mem : codec ∈ bundled frames blocks level)
    (framed : frames.Answers) (sized : blocks.Answers) : codec.Answers := by
  intro rowLength rawLength stored
  simp only [bundled, List.mem_cons, List.not_mem_nil, or_false] at mem
  rcases mem with rfl | rfl | rfl | rfl
  · exact Outcome.not_traps_ok
  · exact framed _ _
  · exact sized _
  · simp only [shuffled]
    split_ifs
    · simp [Traps, Fault.trap]
    · refine Outcome.not_traps_bind (framed _ _) fun content _ => ?_
      split_ifs <;> simp [Traps, Fault.trap]
    · exact Outcome.not_traps_bind (framed _ _) fun content _ => Outcome.not_traps_ok

end BlockCodec

end Codecs

theorem RowCursor.not_traps_ofRecords {bytes : Bytes} {rowLength rows : Nat} {layout : Layout}
    {order : ByteOrder} : ¬ Traps Error.trap (ofRecords bytes rowLength rows layout order) := by
  refine Outcome.not_traps_bind (Outcome.not_traps_forM fun column _ => ?_) fun _ _ => ?_
  · refine Outcome.not_traps_bind Column.not_traps_validate fun _ _ => ?_
    split
    · simp [Traps]
    · split_ifs <;> simp [Traps]
  · dsimp only
    split_ifs <;> simp [Traps]

namespace RowFile

variable {memory : Memory} {codec : BlockCodec} {bytes : Bytes} {file : RowFile}
  {offset count block row : Nat} {entry : BlockEntry}

section Parts

theorem not_traps_readAt : ¬ Traps Fault.trap (readAt bytes offset count) := by
  rw [readAt]
  split
  · exact Outcome.not_traps_ok
  · split_ifs <;> simp [Traps, Fault.trap]

theorem not_traps_seek : ¬ Traps Fault.trap (seek offset) := by
  rw [seek]
  split_ifs <;> simp [Traps, Fault.trap]

theorem not_traps_peek : ¬ Traps Fault.trap (peek bytes) := by
  refine Outcome.not_traps_bind (Outcome.traps_inContext_iff.not.mpr not_traps_readAt) fun front _ => ?_
  rw [FileHeader.ofBytes]
  split_ifs
  · simp [Traps, Fault.trap]
  · split <;> simp [Traps, Fault.trap]

theorem not_traps_readIndex : ¬ Traps Fault.trap (readIndex bytes offset count) := by
  induction count generalizing offset with
  | zero => exact Outcome.not_traps_ok
  | succ count ih =>
      refine Outcome.not_traps_bind (Outcome.traps_inContext_iff.not.mpr not_traps_readAt) fun _ _ => ?_
      exact Outcome.not_traps_bind ih fun _ _ => Outcome.not_traps_ok

theorem traps_reserve_iff :
    Traps Fault.trap (memory.reserve count) ↔ memory.limit ≤ count := by
  rw [Memory.reserve, ← not_lt]
  split_ifs with fits
  · exact iff_of_false Outcome.not_traps_ok (not_not_intro fits)
  · exact iff_of_true ⟨_, rfl⟩ fits

end Parts

section Opening

/-- All that stands before the block index is in order, and the index would start at an offset. -/
structure Heads (codec : BlockCodec) (bytes : Bytes) (header : FileHeader) (layout : Layout)
    (offset : Nat) : Prop where
  peeked : peek bytes = .ok header
  version : header.version = FileHeader.currentVersion
  stored : header.codec = codec.id
  schema : (Outcome.inContext .schema (readAt bytes FileHeader.size header.schemaLength.toNat) >>=
    Schema.decode header.columns.toNat) = .ok layout
  footer : (readAt bytes (bytes.length - 8) 8 >>= fun footer => seek (Bytes.toNat footer)) = .ok offset

/-- A file is opened by its head and then its block index. -/
theorem Heads.openIn_eq {header : FileHeader} {layout : Layout}
    (heads : Heads codec bytes header layout offset) :
    openIn memory codec bytes = (do
      memory.reserve (header.blocks.toNat * BlockEntry.size)
      let index ← readIndex bytes offset header.blocks.toNat
      .ok ⟨bytes, header, layout, index, codec⟩) := by
  obtain ⟨schema, read, decoded⟩ := Outcome.bind_eq_ok_iff.mp heads.schema
  obtain ⟨footer, found, sought⟩ := Outcome.bind_eq_ok_iff.mp heads.footer
  simp only [openIn, heads.peeked, heads.version, heads.stored, read, decoded, found, sought, bind,
    Except.bind, ne_eq, not_true_eq_false, if_false]

/-- Without a head that is in order, a file is refused. -/
theorem heads_of_traps (traps : Traps Fault.trap (openIn memory codec bytes)) :
    ∃ header layout offset, Heads codec bytes header layout offset := by
  rw [openIn, Outcome.traps_bind_iff, or_iff_right not_traps_peek] at traps
  obtain ⟨header, peeked, traps⟩ := traps
  dsimp only at traps
  rw [Outcome.traps_guard_iff (by simp [Fault.trap]), Outcome.traps_guard_iff (by simp [Fault.trap]),
    not_not, not_not, Outcome.traps_bind_iff,
    or_iff_right (Outcome.traps_inContext_iff.not.mpr not_traps_readAt)] at traps
  obtain ⟨version, stored, schema, read, traps⟩ := traps
  rw [Outcome.traps_bind_iff, or_iff_right Schema.not_traps_decode] at traps
  obtain ⟨layout, decoded, traps⟩ := traps
  rw [Outcome.traps_bind_iff, or_iff_right not_traps_readAt] at traps
  obtain ⟨footer, found, traps⟩ := traps
  rw [Outcome.traps_bind_iff, or_iff_right not_traps_seek] at traps
  obtain ⟨offset, sought, -⟩ := traps
  exact ⟨header, layout, offset, peeked, version, stored,
    Outcome.bind_eq_ok_iff.mpr ⟨schema, read, decoded⟩,
    Outcome.bind_eq_ok_iff.mpr ⟨footer, found, sought⟩⟩

theorem traps_openIn_iff :
    Traps Fault.trap (openIn memory codec bytes) ↔ ∃ header layout offset,
      Heads codec bytes header layout offset ∧
        memory.limit ≤ header.blocks.toNat * BlockEntry.size := by
  constructor
  · intro traps
    obtain ⟨header, layout, offset, heads⟩ := heads_of_traps traps
    rw [heads.openIn_eq, Outcome.traps_bind_iff, traps_reserve_iff] at traps
    rcases traps with huge | ⟨-, -, traps⟩
    · exact ⟨header, layout, offset, heads, huge⟩
    · exact absurd traps (Outcome.not_traps_bind not_traps_readIndex fun _ _ => Outcome.not_traps_ok)
  · rintro ⟨header, layout, offset, heads, huge⟩
    rw [heads.openIn_eq, Outcome.traps_bind_iff, traps_reserve_iff]
    exact .inl huge

theorem parts_of_openIn (opened : openIn memory codec bytes = .ok file) :
    file.bytes = bytes ∧ file.codec = codec := by
  simp only [openIn, Outcome.guard_eq_ok_iff, Outcome.bind_eq_ok_iff] at opened
  obtain ⟨_, -, -, -, _, -, _, -, _, -, _, -, _, -, _, -, same⟩ := opened
  rw [← Except.ok.inj same]
  exact ⟨rfl, rfl⟩

end Opening

section Reading

theorem not_traps_readBlock [Checksum] (answers : file.codec.Answers) :
    ¬ Traps Fault.trap (file.readBlock block) := by
  rw [readBlock]
  split
  · simp [Traps, Fault.trap]
  · rename_i entry found
    have stored : ¬ Traps Fault.trap (file.storedBlock entry) := by
      refine Outcome.not_traps_bind not_traps_seek fun offset _ => ?_
      refine Outcome.not_traps_bind not_traps_readAt fun length _ => ?_
      refine Outcome.not_traps_bind not_traps_readAt fun sidecar _ => ?_
      exact Outcome.not_traps_bind not_traps_readAt fun payload _ => Outcome.not_traps_ok
    refine Outcome.not_traps_bind stored fun stored _ => ?_
    refine Outcome.not_traps_bind ?_ fun _ _ => ?_
    · rw [checkPayload]
      split_ifs <;> simp [Traps, Fault.trap]
    · refine Outcome.not_traps_bind (Outcome.traps_inContext_iff.not.mpr (answers _ _ _)) fun raw _ => ?_
      split_ifs <;> simp [Traps, Fault.trap]

/-- What the index says of a row's block leaves the range of offsets: the block starts behind the row,
or the row would end past the greatest offset. -/
def Overruns (file : RowFile) (row : Nat) (entry : BlockEntry) : Prop :=
  row < entry.firstRow.toNat ∨ UInt64.size ≤
    (row - entry.firstRow.toNat) * file.header.rowLength.toNat + file.header.rowLength.toNat

theorem traps_rowSpan_iff :
    Traps Fault.trap (file.rowSpan row entry.firstRow.toNat) ↔ file.Overruns row entry := by
  rw [rowSpan, Overruns]
  split_ifs with overruns
  · exact iff_of_true ⟨_, rfl⟩ overruns
  · exact iff_of_false Outcome.not_traps_ok overruns

theorem traps_readRow_iff [Checksum] (answers : file.codec.Answers) :
    Traps Fault.trap (file.readRow row) ↔ row < file.header.rows.toNat ∧
      (file.header.rowsPerBlock = 0 ∨ ∃ entry raw,
        file.index[row / file.header.rowsPerBlock.toNat]? = some entry ∧
        file.readBlock (row / file.header.rowsPerBlock.toNat) = .ok raw ∧ file.Overruns row entry) := by
  rw [readRow]
  split_ifs with outside
  · refine iff_of_false ?_ fun both => absurd both.1 (not_lt.mpr outside)
    simp [Traps, Fault.trap]
  · rw [and_iff_right (not_le.mp outside), Outcome.traps_bind_iff, blockOf]
    split_ifs with none
    · exact iff_of_true (.inl ⟨_, rfl⟩) (.inl none)
    · rw [or_iff_right none, or_iff_right Outcome.not_traps_ok]
      simp only [Except.ok.injEq, exists_eq_left']
      cases held : file.index[row / file.header.rowsPerBlock.toNat]? with
      | none =>
          refine iff_of_false (by simp [Traps, Fault.trap]) ?_
          rintro ⟨entry, raw, absent, -⟩
          cases absent
      | some entry =>
          dsimp only
          rw [Outcome.traps_bind_iff, or_iff_right (not_traps_readBlock answers)]
          simp only [Option.some.injEq, exists_and_left, exists_eq_left']
          refine exists_congr fun raw => and_congr_right fun _ => ?_
          rw [Outcome.traps_bind_iff, traps_rowSpan_iff, or_iff_left_iff_imp]
          rintro ⟨span, -, traps⟩
          refine absurd traps ?_
          split
          · simp [Traps, Fault.trap]
          · rw [Outcome.traps_inContext_iff, Outcome.traps_ofData_iff]
            exact Row.not_traps_read

theorem traps_reserveRows_iff :
    Traps Fault.trap (file.reserveRows memory) ↔ memory.limit ≤ file.rawSize := by
  have words : memory.limit ≤ UInt64.size := memory.signed.trans (by decide)
  rw [reserveRows]
  split_ifs with overflow
  · exact iff_of_true ⟨_, rfl⟩ (words.trans overflow)
  · exact traps_reserve_iff

theorem traps_loadIn_iff [Checksum] (answers : file.codec.Answers) :
    Traps Fault.trap (file.loadIn memory) ↔ memory.limit ≤ file.rawSize := by
  have gathered : ¬ Traps Fault.trap file.toCursor := by
    refine Outcome.not_traps_bind (Outcome.not_traps_mapM fun _ _ => not_traps_readBlock answers)
      fun blocks _ => ?_
    rw [Outcome.traps_ofData_iff]
    exact RowCursor.not_traps_ofRecords
  rw [loadIn, Outcome.traps_bind_iff, traps_reserveRows_iff, or_iff_left_iff_imp]
  rintro ⟨-, -, traps⟩
  exact absurd traps gathered

/-- Where every block starts at its multiple of the rows in a block, no row overruns. -/
theorem not_overruns_of_regular (divided : file.header.rowsPerBlock ≠ 0)
    (regular : entry.firstRow.toNat =
      row / file.header.rowsPerBlock.toNat * file.header.rowsPerBlock.toNat) :
    ¬ file.Overruns row entry := by
  generalize width : file.header.rowsPerBlock.toNat = blockRows at regular
  have positive : 0 < blockRows := by
    rw [← width, Nat.pos_iff_ne_zero]
    exact fun zero => divided (UInt32.toNat_inj.mp zero)
  have place : row - entry.firstRow.toNat = row % blockRows := by
    rw [regular, Nat.mod_eq_sub_div_mul]
  have few : blockRows < UInt32.size := width ▸ file.header.rowsPerBlock.toNat_lt
  have short : file.header.rowLength.toNat < UInt32.size := file.header.rowLength.toNat_lt
  rintro (before | past)
  · exact absurd (regular ▸ Nat.div_mul_le_self row blockRows) (not_le.mpr before)
  · have most : (row % blockRows + 1) * file.header.rowLength.toNat ≤
        (UInt32.size - 1) * (UInt32.size - 1) := by
      have inside := Nat.mod_lt row positive
      exact Nat.mul_le_mul (by omega) (by omega)
    rw [place, ← Nat.succ_mul] at past
    exact absurd (past.trans most) (by decide)

end Reading

end RowFile

end RowStore
