import Mathlib
import RowStore.Proofs.Cursor.Records
import RowStore.Proofs.RowFile.Format
import RowStore.Proofs.RowFile.Writing
import RowStore.RowFile.Reading

/-! Row files read back after they were finished.

The parts of a finished file stand one behind another, so each is found where the header, the last
bytes or the index say. From there on every block is restored to the rows that it was stored from.
-/

namespace RowStore.RowFile

section Parts

variable {bytes front part back : Bytes}

theorem readAt_eq (front part back : Bytes) (shape : bytes = front ++ part ++ back) :
    readAt bytes front.length part.length = .ok part := by
  have slice := Bytes.slice?_append_right front (part ++ back) 0 part.length
  rw [Nat.add_zero, ← List.append_assoc, ← shape] at slice
  rw [readAt, slice]
  simp [Bytes.slice?]

theorem readIndex_eq (front : Bytes) (entries : List BlockEntry) (back : Bytes)
    (shape : bytes = front ++ entries.flatMap BlockEntry.toBytes ++ back) :
    readIndex bytes front.length entries.length = .ok entries := by
  induction entries generalizing front with
  | nil => rfl
  | cons entry entries ih =>
      have first : readAt bytes front.length BlockEntry.size = .ok entry.toBytes := by
        rw [← BlockEntry.length_toBytes entry]
        refine readAt_eq _ _ (entries.flatMap BlockEntry.toBytes ++ back) ?_
        simp [shape]
      have later := ih (front ++ entry.toBytes) (by simp [shape])
      rw [List.length_append, BlockEntry.length_toBytes] at later
      simp only [List.length_cons, readIndex, first, later, Outcome.inContext, Except.mapError, bind,
        Except.bind, BlockEntry.ofBytes_toBytes]

end Parts

namespace Builder

variable {origin builder full : Builder} {rows : List Bytes}

namespace Covers

variable [Checksum]

theorem slice?_block (covers : Covers origin full rows)
    (uniform : ∀ row ∈ rows, row.length = origin.layout.rowLength)
    (positive : 0 < full.rowsPerBlock.toNat) {row : Nat} {bytes : Bytes}
    (found : rows[row]? = some bytes) :
    Bytes.slice? (blockRows full.rowsPerBlock.toNat rows (row / full.rowsPerBlock.toNat)).flatten
        (row % full.rowsPerBlock.toNat * full.layout.rowLength)
        (row % full.rowsPerBlock.toNat * full.layout.rowLength + full.layout.rowLength) =
      some bytes := by
  rw [covers.shape.2.1]
  refine slice?_flatten (fun row mem => uniform row (mem_of_mem_blockRows mem)) ?_
  rw [getElem?_blockRows row positive, found]

/-- The blocks of a builder, one behind the other, are its rows. -/
theorem flatten_blocks (covers : Covers origin full rows) :
    ((List.range full.index.length).map fun block =>
      (blockRows full.rowsPerBlock.toNat rows block).flatten).flatten = rows.flatten := by
  have joined := congrArg List.flatten (flatten_blockRows
    full.rowsPerBlock.toNat rows full.index.length)
  rw [List.take_of_length_le covers.enough, List.flatten_flatten, List.map_map] at joined
  exact joined

end Covers

variable [Host]

/-- The file that opening a finished file gives. -/
def file (builder : Builder) : RowFile where
  bytes := builder.sealed
  header := builder.header
  layout := builder.layout.map Column.withoutStages
  index := builder.index.reverse
  codec := builder.codec

/-- The numbers of a finished file fit the fields that hold them. -/
structure Bounded (builder : Builder) : Prop where
  rowLength : builder.layout.rowLength < UInt32.size
  schema : builder.schema.length < UInt32.size
  columns : builder.layout.length ≤ 65535
  rows : builder.rows < UInt64.size
  bytes : builder.sealed.length < 1 <<< 63

theorem length_sealed (builder : Builder) :
    builder.sealed.length =
      builder.offset + builder.index.length * BlockEntry.size + 8 := by
  have entries (index : List BlockEntry) :
      (index.flatMap BlockEntry.toBytes).length = index.length * BlockEntry.size := by
    rw [List.length_flatMap, List.map_congr_left fun entry _ => BlockEntry.length_toBytes entry]
    simp
  simp only [Builder.sealed, offset, List.length_append, FileHeader.length_toBytes, entries,
    List.length_reverse, Bytes.length_ofNat]

theorem peek_sealed (builder : Builder) : peek builder.sealed = .ok builder.header := by
  have read : readAt builder.sealed 0 FileHeader.size = .ok builder.header.toBytes := by
    rw [← FileHeader.length_toBytes builder.header]
    refine readAt_eq [] _ (builder.schema ++ builder.blocks ++
      builder.index.reverse.flatMap BlockEntry.toBytes ++ Bytes.ofNat 8 builder.offset) ?_
    simp [Builder.sealed]
  simp only [peek, read, Outcome.inContext, Except.mapError, bind, Except.bind,
    FileHeader.ofBytes_toBytes]

theorem readSchema_sealed (builder : Builder) :
    readAt builder.sealed FileHeader.size builder.schema.length = .ok builder.schema := by
  rw [← FileHeader.length_toBytes builder.header]
  refine readAt_eq _ _ (builder.blocks ++
    builder.index.reverse.flatMap BlockEntry.toBytes ++ Bytes.ofNat 8 builder.offset) ?_
  simp [Builder.sealed]

theorem readFooter_sealed (builder : Builder) :
    readAt builder.sealed (builder.sealed.length - 8) 8 = .ok (Bytes.ofNat 8 builder.offset) := by
  generalize front_eq : builder.header.toBytes ++ builder.schema ++ builder.blocks ++
    builder.index.reverse.flatMap BlockEntry.toBytes = front
  have shape : builder.sealed = front ++ Bytes.ofNat 8 builder.offset ++ [] := by
    rw [Builder.sealed, front_eq, List.append_nil]
  have length : builder.sealed.length - 8 = front.length := by
    simp [shape]
  have read := readAt_eq _ _ _ shape
  rwa [Bytes.length_ofNat, ← length] at read

theorem readIndex_sealed (builder : Builder) :
    readIndex builder.sealed builder.offset builder.index.length = .ok builder.index.reverse := by
  have read := readIndex_eq _ builder.index.reverse (Bytes.ofNat 8 builder.offset)
    (show builder.sealed = _ from rfl)
  have front : (builder.header.toBytes ++ builder.schema ++ builder.blocks).length =
      builder.offset := by
    rw [List.length_append, List.length_append, FileHeader.length_toBytes]
    rfl
  rwa [front, List.length_reverse] at read

namespace Bounded

theorem header (bounded : builder.Bounded) :
    builder.header.rowLength.toNat = builder.layout.rowLength ∧
      builder.header.schemaLength.toNat = builder.schema.length ∧
      builder.header.columns.toNat = builder.layout.length ∧
      builder.header.rows.toNat = builder.rows ∧
      builder.header.blocks.toNat = builder.index.length := by
  have length := length_sealed builder
  have bytes := bounded.bytes
  have columns := bounded.columns
  have blocks : builder.index.length < UInt64.size := by
    simp only [BlockEntry.size, UInt64.size, Nat.reduceShiftLeft] at *
    omega
  exact ⟨UInt32.toNat_ofNat_of_lt' bounded.rowLength, UInt32.toNat_ofNat_of_lt' bounded.schema,
    UInt16.toNat_ofNat_of_lt' (by simp only [UInt16.size]; omega),
    UInt64.toNat_ofNat_of_lt' bounded.rows, UInt64.toNat_ofNat_of_lt' blocks⟩

theorem ofBytes_sealed (bounded : builder.Bounded)
    (valid : ∀ column ∈ builder.layout, column.validate = .ok ())
    (encoded : Schema.encode builder.layout = .ok builder.schema) :
    ofBytes builder.codec builder.sealed = .ok builder.file := by
  obtain ⟨-, schemaLength, columns, -, blocks⟩ := bounded.header
  have length := length_sealed builder
  have bytes := bounded.bytes
  have footer : Bytes.toNat (Bytes.ofNat 8 builder.offset) = builder.offset := by
    rw [Bytes.toNat_ofNat]
    simp only [Nat.reduceShiftLeft] at bytes
    omega
  have seekable : seek builder.offset = .ok builder.offset := by
    rw [seek, if_pos (by omega)]
  have room : Memory.greatest.reserve (builder.index.length * BlockEntry.size) = .ok () := by
    have fits : builder.index.length * BlockEntry.size < 1 <<< 63 := by omega
    exact if_pos fits
  have version : builder.header.version = FileHeader.currentVersion := rfl
  have codec : builder.header.codec = builder.codec.id := rfl
  simp only [ofBytes, openIn, peek_sealed, bind, Except.bind, version, codec, ne_eq,
    not_true_eq_false, if_false, schemaLength, readSchema_sealed, Outcome.inContext, Except.mapError,
    columns, Schema.decode_encode valid encoded, readFooter_sealed, footer, seekable, blocks, room,
    readIndex_sealed]
  rfl

theorem storedBlock_file [Checksum] (bounded : builder.Bounded) {entry : BlockEntry} {raw : Bytes}
    {stored : StoredBlock} (located : Locates builder.codec builder.layout.rowLength
      (FileHeader.size + builder.schema.length) builder.blocks entry raw stored) :
    builder.file.storedBlock entry = .ok stored := by
  obtain ⟨before, after, shape, offset⟩ := located.stands
  have bytes := bounded.bytes
  generalize front_eq : builder.header.toBytes ++ builder.schema ++ before = front
  generalize back_eq : after ++ builder.index.reverse.flatMap BlockEntry.toBytes ++
    Bytes.ofNat 8 builder.offset = back
  have parts : builder.sealed = front ++ Bytes.ofNat 2 stored.sidecar.length ++ (stored.sidecar ++
      stored.payload ++ back) := by
    rw [Builder.sealed, shape, ← front_eq, ← back_eq]
    simp [blockBytes]
  have start : FileHeader.size + builder.schema.length + before.length = front.length := by
    rw [← front_eq, List.length_append, List.length_append, FileHeader.length_toBytes]
  have inside : front.length < 1 <<< 63 := by
    have total := congrArg List.length parts
    simp only [List.length_append] at total
    omega
  have position : entry.offset.toNat = front.length := by
    rw [offset, start]
    exact UInt64.toNat_ofNat_of_lt' (lt_trans inside (by decide))
  have lengthRead := readAt_eq _ _ _ parts
  have sidecarRead := readAt_eq (front ++ Bytes.ofNat 2 stored.sidecar.length) stored.sidecar
    (stored.payload ++ back) (show builder.sealed = _ by rw [parts]; simp)
  have payloadRead := readAt_eq (front ++ Bytes.ofNat 2 stored.sidecar.length ++ stored.sidecar)
    stored.payload back (show builder.sealed = _ by rw [parts]; simp)
  have sidecarLength : Bytes.toNat (Bytes.ofNat 2 stored.sidecar.length) =
      stored.sidecar.length := by
    have sidecar := located.sidecar
    rw [Bytes.toNat_ofNat]
    omega
  simp only [List.length_append, Bytes.length_ofNat] at lengthRead sidecarRead payloadRead
  have fileBytes : builder.file.bytes = builder.sealed := rfl
  simp only [storedBlock, position, seek, if_pos inside, fileBytes, lengthRead, sidecarLength,
    sidecarRead, located.storedLength, payloadRead, bind, Except.bind]

theorem readBlock_file [Checksum] (bounded : builder.Bounded) {block : Nat} {entry : BlockEntry}
    {raw : Bytes} {stored : StoredBlock} (found : builder.index.reverse[block]? = some entry)
    (located : Locates builder.codec builder.layout.rowLength
      (FileHeader.size + builder.schema.length) builder.blocks entry raw stored) :
    builder.file.readBlock block = .ok raw := by
  obtain ⟨rowLength, -⟩ := bounded.header
  have index : builder.file.index[block]? = some entry := found
  have header : builder.file.header.rowLength.toNat = builder.layout.rowLength := rowLength
  have restored : builder.file.codec.expand builder.layout.rowLength raw.length stored = .ok raw :=
    located.restores
  have intact : builder.file.checkPayload block entry stored.payload = .ok () := by
    rw [checkPayload, located.checksum]
    simp
  rw [readBlock, index]
  simp only [bounded.storedBlock_file located, intact, header, located.rawLength, restored,
    Outcome.inContext, Except.mapError, bind, Except.bind, if_true]

theorem rowSpan_file (bounded : builder.Bounded) {row : Nat} (inside : row < builder.rows)
    (short : row % builder.rowsPerBlock.toNat * builder.layout.rowLength +
      builder.layout.rowLength < UInt64.size) :
    builder.file.rowSpan row
        (UInt64.ofNat (row / builder.rowsPerBlock.toNat * builder.rowsPerBlock.toNat)).toNat =
      .ok ⟨row % builder.rowsPerBlock.toNat * builder.layout.rowLength,
        row % builder.rowsPerBlock.toNat * builder.layout.rowLength + builder.layout.rowLength⟩ := by
  have numbered := bounded.rows
  have below := Nat.div_mul_le_self row builder.rowsPerBlock.toNat
  have whole := Nat.div_add_mod' row builder.rowsPerBlock.toNat
  have first : (UInt64.ofNat (row / builder.rowsPerBlock.toNat *
      builder.rowsPerBlock.toNat)).toNat =
        row / builder.rowsPerBlock.toNat * builder.rowsPerBlock.toNat :=
    UInt64.toNat_ofNat_of_lt' (by omega)
  have behind : row - row / builder.rowsPerBlock.toNat * builder.rowsPerBlock.toNat =
      row % builder.rowsPerBlock.toNat := by
    omega
  have length : builder.file.header.rowLength.toNat = builder.layout.rowLength := bounded.header.1
  simp only [rowSpan, first, length, behind]
  rw [if_neg (by omega)]

end Bounded

theorem blockOf_file (row : Nat) (positive : 0 < builder.rowsPerBlock.toNat) :
    builder.file.blockOf row = .ok (row / builder.rowsPerBlock.toNat) := by
  have same : builder.file.header.rowsPerBlock = builder.rowsPerBlock := rfl
  have nonzero : builder.rowsPerBlock ≠ 0 := by
    rintro zero
    rw [zero] at positive
    exact absurd positive (by decide)
  rw [RowFile.blockOf, same, if_neg nonzero]

variable [Checksum]

namespace Covers

theorem bounded (covers : Covers origin full rows) (admissible : origin.Admissible)
    (counted : rows.length < UInt64.size) (bytes : full.sealed.length < 1 <<< 63) :
    full.Bounded := by
  obtain ⟨-, layout, -, schema⟩ := covers.shape
  refine ⟨?_, ?_, ?_, ?_, bytes⟩
  · rw [layout]
    exact admissible.rowLength
  · rw [schema]
    exact admissible.schemaLength
  · rw [layout]
    exact admissible.columns
  · rw [covers.counted]
    exact counted

theorem ofBytes (covers : Covers origin full rows) (admissible : origin.Admissible)
    (bounded : full.Bounded) : RowFile.ofBytes origin.codec full.sealed = .ok full.file := by
  obtain ⟨codec, layout, -, schema⟩ := covers.shape
  rw [← codec]
  refine bounded.ofBytes_sealed ?_ ?_
  · rw [layout]
    exact admissible.valid
  · rw [layout, schema]
    exact admissible.schema

theorem readBlock (covers : Covers origin full rows) (bounded : full.Bounded) {block : Nat}
    (inside : block < full.index.length) :
    ∃ entry, full.index.reverse[block]? = some entry ∧
      entry.firstRow = UInt64.ofNat (block * full.rowsPerBlock.toNat) ∧
      (blockRows full.rowsPerBlock.toNat rows block).flatten.length < UInt32.size ∧
      full.file.readBlock block = .ok (blockRows full.rowsPerBlock.toNat rows block).flatten := by
  rw [← List.length_reverse] at inside
  have found := List.getElem?_eq_getElem inside
  obtain ⟨firstRow, stored, located⟩ := covers.indexes block _ found
  refine ⟨_, found, firstRow, ?_, bounded.readBlock_file found located⟩
  rw [← located.rawLength]
  exact UInt32.toNat_lt _

/-- Reading a row by its number decodes the bytes that were written for it. -/
theorem readRow (covers : Covers origin full rows) (admissible : origin.Admissible)
    (bounded : full.Bounded) (uniform : ∀ row ∈ rows, row.length = origin.layout.rowLength)
    {row : Nat} {bytes : Bytes} (found : rows[row]? = some bytes) :
    full.file.readRow row =
      Outcome.inContext (.decoding row)
        (Outcome.ofData (Row.read .native bytes origin.layout)) := by
  obtain ⟨-, layout, rowsPerBlock, -⟩ := covers.shape
  have positive : 0 < full.rowsPerBlock.toNat := by
    rw [rowsPerBlock]
    exact admissible.rowsPerBlock
  have inside : row < full.rows := by
    rw [covers.counted]
    exact (List.getElem?_eq_some_iff.mp found).1
  have block : row / full.rowsPerBlock.toNat < full.index.length := by
    have enough := covers.enough
    rw [← covers.counted, Nat.mul_comm] at enough
    exact Nat.div_lt_of_lt_mul (lt_of_lt_of_le inside enough)
  obtain ⟨entry, indexed, firstRow, short, restored⟩ := covers.readBlock bounded block
  -- The row ends inside its block, whose length is a field of 32 bits: the addition cannot trap.
  have slice := covers.slice?_block uniform positive found
  have stop := (Bytes.length_slice? slice).2.1
  have sizes : UInt32.size < UInt64.size := by decide
  have span := bounded.rowSpan_file inside (by omega)
  rw [← firstRow] at span
  have beyond : ¬ full.file.header.rows.toNat ≤ row := by
    have count : full.file.header.rows.toNat = full.rows := bounded.header.2.2.2.1
    omega
  have index : full.file.index[row / full.rowsPerBlock.toNat]? = some entry := indexed
  have layouts : full.file.layout = origin.layout.map Column.withoutStages :=
    congrArg (List.map Column.withoutStages) layout
  simp only [RowFile.readRow, if_neg beyond, blockOf_file row positive, index, restored, span,
    slice, layouts, Row.read_withoutStages, bind, Except.bind]
  rfl

/-- The index adds up to the bytes of all rows. -/
theorem rawSize_file (covers : Covers origin full rows) :
    full.file.rawSize = rows.flatten.length := by
  have lengths : full.index.reverse.map (fun entry => entry.rawLength.toNat) =
      (List.range full.index.length).map fun block =>
        (blockRows full.rowsPerBlock.toNat rows block).flatten.length := by
    refine List.ext_getElem (by simp) fun block inside _ => ?_
    rw [List.length_map] at inside
    obtain ⟨-, stored, located⟩ := covers.indexes block _ (List.getElem?_eq_getElem inside)
    rw [List.getElem_map, List.getElem_map, List.getElem_range]
    exact located.rawLength
  have total : full.file.rawSize =
      (full.index.reverse.map fun entry => entry.rawLength.toNat).sum := by
    rw [rawSize, List.sum, List.foldr_map]
    rfl
  rw [total, lengths, ← covers.flatten_blocks, List.length_flatten, List.map_map]
  rfl

/-- The blocks of a file, one behind the other, are its rows. -/
theorem toCursor (covers : Covers origin full rows) (admissible : origin.Admissible)
    (bounded : full.Bounded) (uniform : ∀ row ∈ rows, row.length = origin.layout.rowLength)
    (fits : rows.length * origin.layout.rowLength ≤ sizeLimit) :
    full.file.toCursor = .ok (.ofSource (.ofRecords rows.flatten origin.layout.rowLength rows.length
      (origin.layout.map Column.withoutStages) .native)) := by
  obtain ⟨-, layout, -⟩ := covers.shape
  obtain ⟨rowLength, -, -, count, blocks⟩ := bounded.header
  have restored : (List.range full.index.length).mapM full.file.readBlock =
      .ok ((List.range full.index.length).map fun block =>
        (blockRows full.rowsPerBlock.toNat rows block).flatten) := by
    rw [Outcome.mapM_eq_ok_iff, List.forall₂_map_right_iff, List.forall₂_same]
    intro block mem
    obtain ⟨entry, -, -, -, read⟩ := covers.readBlock bounded (List.mem_range.mp mem)
    exact read
  have headers : full.file.header.blocks.toNat = full.index.length ∧
      full.file.header.rowLength.toNat = origin.layout.rowLength ∧
      full.file.header.rows.toNat = rows.length :=
    ⟨blocks, rowLength.trans (congrArg Layout.rowLength layout), count.trans covers.counted⟩
  have layouts : full.file.layout = origin.layout.map Column.withoutStages :=
    congrArg (List.map Column.withoutStages) layout
  have order : full.file.header.order = .native := rfl
  simp only [RowFile.toCursor, headers, restored, covers.flatten_blocks, layouts, order, bind, Except.bind,
    RowCursor.ofRecords_eq_ok admissible.valid admissible.placed
      (length_flatten_of_uniform uniform) fits]
  rfl

/-- Rows for which there is room are loaded. -/
theorem load (covers : Covers origin full rows)
    (uniform : ∀ row ∈ rows, row.length = origin.layout.rowLength)
    (room : rows.length * origin.layout.rowLength < 1 <<< 63) :
    full.file.load = full.file.toCursor := by
  have size : full.file.rawSize < 1 <<< 63 := by
    rwa [covers.rawSize_file, length_flatten_of_uniform uniform]
  have words : 1 <<< 63 ≤ UInt64.size := by decide
  have reserved : full.file.reserveRows .greatest = .ok () := by
    rw [reserveRows, if_neg (not_le.mpr (size.trans_le words)), Memory.reserve]
    exact if_pos size
  rw [RowFile.load, loadIn, reserved]
  rfl

end Covers

/-- A file is finished with all its rows, and opens with as many. -/
theorem Tracks.reopen (tracks : Tracks origin builder rows) (admissible : origin.Admissible)
    (keeps : origin.Keeps rows) (numbered : rows.length < UInt64.size)
    (seekable : builder.finish.2.length < 1 <<< 63) :
    ∃ full, builder.finish = (.ok rows.length, full.sealed) ∧ Covers origin full rows ∧
      full.Bounded ∧ RowFile.ofBytes origin.codec builder.finish.2 = .ok full.file ∧
      full.file.header.rows.toNat = rows.length := by
  obtain ⟨full, finished, covers⟩ := tracks.finish keeps
  rw [finished] at seekable ⊢
  have bounded := covers.bounded admissible numbered seekable
  obtain ⟨-, -, -, count, -⟩ := bounded.header
  exact ⟨full, rfl, covers, bounded, covers.ofBytes admissible bounded, count.trans covers.counted⟩

end Builder

end RowStore.RowFile
