import Mathlib
import RowStore.Proofs.RowFile.Refusals

/-! Where everything stands in a finished file.

A builder counts bytes and rows as it goes on, and never looks at the file again. Its counts are
right as long as no block is refused: each block starts where the one before it ends and has its
first row where the one before it has its last, and the index starts where the last block ends.
Nothing is asked of the codec, since no block has to be restored for that.
-/

namespace RowStore.RowFile

/-- Where a block starts: behind the header, the schema and the blocks before it. The last block
ends where the next one would start. -/
def blockStart (schemaLength : Nat) (stored : List StoredBlock) (block : Nat) : Nat :=
  FileHeader.size + schemaLength +
    ((stored.take block).map fun before => 2 + before.sidecar.length + before.payload.length).sum

/-- An entry of the index says where a block of some rows stands, and what the codec has made of
them. -/
structure Describes [Checksum] (builder : Builder) (rows : List Bytes) (stored : List StoredBlock)
    (block : Nat) (entry : BlockEntry) (here : StoredBlock) : Prop where
  offset : entry.offset = UInt64.ofNat (blockStart builder.schema.length stored block)
  firstRow : entry.firstRow = UInt64.ofNat (block * builder.rowsPerBlock.toNat)
  storedLength : entry.storedLength.toNat = here.payload.length
  rawLength : entry.rawLength.toNat =
    builder.layout.rowLength * (blockRows builder.rowsPerBlock.toNat rows block).length
  checksum : entry.checksum = Checksum.ofPayload here.payload
  compressed : builder.codec.compress builder.layout.rowLength
    (blockRows builder.rowsPerBlock.toNat rows block).flatten = .ok here

section Places

variable {builder : Builder} {rows : List Bytes} {stored : List StoredBlock} {block : Nat}
  {entry : BlockEntry} {here : StoredBlock}

theorem blockStart_append (inside : block ≤ stored.length) (schemaLength : Nat)
    (more : List StoredBlock) :
    blockStart schemaLength (stored ++ more) block = blockStart schemaLength stored block := by
  rw [blockStart, blockStart, List.take_append_of_le_length inside]

/-- The blocks end behind all of their bytes. -/
theorem blockStart_length (schemaLength : Nat) (stored : List StoredBlock) :
    blockStart schemaLength stored stored.length =
      FileHeader.size + schemaLength + (stored.flatMap Builder.blockBytes).length := by
  have length (here : StoredBlock) :
      (Builder.blockBytes here).length = 2 + here.sidecar.length + here.payload.length := by
    rw [Builder.blockBytes, List.length_append, List.length_append, Bytes.length_ofNat]
  rw [blockStart, List.take_length, List.length_flatMap]
  simp only [length]

variable [Checksum]

/-- A full block has the same rows when more of them come. -/
theorem Describes.append_rows (described : Describes builder rows stored block entry here)
    (full : (block + 1) * builder.rowsPerBlock.toNat ≤ rows.length) (later : List Bytes) :
    Describes builder (rows ++ later) stored block entry here := by
  have same := blockRows_append full later
  exact { described with
    rawLength := same ▸ described.rawLength
    compressed := same ▸ described.compressed }

theorem Describes.append_stored (described : Describes builder rows stored block entry here)
    (inside : block ≤ stored.length) (more : List StoredBlock) :
    Describes builder rows (stored ++ more) block entry here :=
  { described with offset := blockStart_append inside _ more ▸ described.offset }

end Places

namespace Builder

variable [Checksum]

/-- The blocks of a builder hold the first of these rows. -/
structure Shelves (origin builder : Builder) (rows : List Bytes) (stored : List StoredBlock) :
    Prop where
  shape : SameShape origin builder
  counted : builder.rows = rows.length
  uniform : ∀ row ∈ rows, row.length = origin.layout.rowLength
  blocks : builder.blocks = stored.flatMap blockBytes
  indexed : builder.index.length = stored.length
  described : ∀ (block : Nat) (entry : BlockEntry), builder.index.reverse[block]? = some entry →
    ∃ here, stored[block]? = some here ∧ Describes origin rows stored block entry here

/-- The blocks are full, and the other rows are pending. -/
structure Fills (origin builder : Builder) (rows : List Bytes) (stored : List StoredBlock) : Prop
    extends Shelves origin builder rows stored where
  covered : stored.length * origin.rowsPerBlock.toNat + builder.pendingRows.toNat = rows.length
  pending : builder.pending = (rows.drop (stored.length * origin.rowsPerBlock.toNat)).flatten
  room : builder.pendingRows.toNat ≤ origin.rowsPerBlock.toNat

theorem writeAll_cons [Host] [CalendarText] (builder : Builder) (values : List Value)
    (calls : List (List Value)) :
    builder.writeAll (values :: calls) =
      ((builder.write values).1 :: ((builder.write values).2.writeAll calls).1,
        ((builder.write values).2.writeAll calls).2) := rfl

theorem fills_create {codec : BlockCodec} {layout : Layout} {rowsPerBlock : UInt32}
    {builder : Builder} (created : create codec layout rowsPerBlock = .ok builder) :
    Fills builder builder [] [] := by
  obtain ⟨fresh, -⟩ := create_eq_ok created
  obtain ⟨pending, pendingRows, rows, blocks, index⟩ : builder.pending = [] ∧
      builder.pendingRows = 0 ∧ builder.rows = 0 ∧ builder.blocks = [] ∧ builder.index = [] := by
    rw [fresh]
    exact ⟨rfl, rfl, rfl, rfl, rfl⟩
  exact {
    shape := .refl builder
    counted := rows
    uniform := fun _ => nofun
    blocks := blocks
    indexed := by rw [index]; rfl
    described := fun block entry found => by
      rw [index] at found
      cases found
    covered := by rw [pendingRows, List.length_nil, List.length_nil, Nat.zero_mul, UInt32.toNat_zero]
    pending := by rw [pending, List.drop_nil]; rfl
    room := by rw [pendingRows]; exact Nat.zero_le _ }

namespace Fills

variable {origin builder full : Builder} {rows : List Bytes} {stored : List StoredBlock}
  {row : Bytes} {values : List Value}

theorem pending_eq (fills : Fills origin builder rows stored) :
    builder.pending =
      (blockRows origin.rowsPerBlock.toNat rows stored.length).flatten := by
  have covered := fills.covered
  have room := fills.room
  rw [fills.pending, blockRows_last]
  rw [Nat.succ_mul]
  omega

theorem isCrowded_eq_false (fills : Fills origin builder rows stored)
    (resting : builder.pendingRows.toNat < origin.rowsPerBlock.toNat) :
    builder.isCrowded = false := by
  obtain ⟨-, -, rowsPerBlock, -⟩ := fills.shape
  exact isCrowded_of_resting (rowsPerBlock ▸ resting)

theorem append (fills : Fills origin builder rows stored)
    (resting : builder.pendingRows.toNat < origin.rowsPerBlock.toNat)
    (length : row.length = origin.layout.rowLength) :
    Fills origin (builder.append row) (rows ++ [row]) stored := by
  have covered := fills.covered
  have counted : (builder.append row).pendingRows.toNat = builder.pendingRows.toNat + 1 :=
    toNat_pendingRows_append (fills.isCrowded_eq_false resting) row
  have within : stored.length * origin.rowsPerBlock.toNat ≤ rows.length := by omega
  have uniform : ∀ other ∈ rows ++ [row], other.length = origin.layout.rowLength := by
    intro other mem
    rcases List.mem_append.mp mem with known | new
    · exact fills.uniform other known
    · rw [List.mem_singleton.mp new, length]
  refine { fills with
    uniform, counted := ?_, described := ?_, covered := ?_, pending := ?_,
    room := counted.trans_le resting }
  · rw [List.length_append, ← fills.counted]
    rfl
  -- The blocks in the index are full, so the new row is in none of them.
  · intro block entry found
    obtain ⟨here, at', described⟩ := fills.described block entry found
    have inside : block + 1 ≤ stored.length := (List.getElem?_eq_some_iff.mp at').1
    exact ⟨here, at', described.append_rows
      ((Nat.mul_le_mul_right _ inside).trans within) [row]⟩
  · rw [counted, List.length_append, ← covered, Nat.add_assoc]
    rfl
  · rw [List.drop_append_of_le_length within, List.flatten_append, List.flatten_singleton,
      ← fills.pending]
    rfl

/-- The entry of the pending rows describes the block behind the others. -/
theorem describes_entry (fills : Fills origin builder rows stored) {block : StoredBlock}
    (compressed :
      builder.codec.compress builder.layout.rowLength builder.pending = .ok block)
    (payload : block.payload.length < UInt32.size) (raw : builder.pending.length < UInt32.size) :
    Describes origin rows (stored ++ [block]) stored.length (builder.entry block) block := by
  obtain ⟨codec, layout, rowsPerBlock, schema⟩ := fills.shape
  have pending := fills.pending_eq
  have covered := fills.covered
  have counted := fills.counted
  have uniform : ∀ row ∈ blockRows origin.rowsPerBlock.toNat rows stored.length,
      row.length = origin.layout.rowLength :=
    fun row mem => fills.uniform row (mem_of_mem_blockRows mem)
  refine ⟨?_, ?_, UInt32.toNat_ofNat_of_lt' payload, ?_, rfl, ?_⟩
  · rw [blockStart_append (Nat.le_refl _), blockStart_length, ← fills.blocks, ← schema]
    rfl
  · exact congrArg UInt64.ofNat (by omega)
  · rw [Nat.mul_comm, ← length_flatten_of_uniform uniform, ← pending]
    exact UInt32.toNat_ofNat_of_lt' raw
  · rw [← pending, ← codec, ← layout]
    exact compressed

/-- The block of the pending rows stands behind the others. -/
theorem flush (fills : Fills origin builder rows stored) (occupied : builder.pendingRows ≠ 0)
    (flushed : builder.flush = (.ok (), full)) :
    ∃ block, full = builder.stored block ∧ Shelves origin full rows (stored ++ [block]) := by
  obtain ⟨fault, blocks, refused⟩ | ⟨block, compressed, -, payload, raw, done⟩ :=
    flush_cases occupied
  · rw [refused] at flushed
    cases flushed
  rw [done] at flushed
  obtain ⟨-, rfl⟩ := Prod.mk.inj flushed
  have last := fills.describes_entry compressed payload raw
  refine ⟨block, rfl, fills.shape, fills.counted, fills.uniform, ?_, ?_, ?_⟩
  · rw [List.flatMap_append, ← fills.blocks, List.flatMap_singleton]
    rfl
  · rw [List.length_append, ← fills.indexed]
    rfl
  · intro number entry found
    have index : (builder.stored block).index.reverse =
        builder.index.reverse ++ [builder.entry block] := List.reverse_cons
    have length := builder.index.length_reverse.trans fills.indexed
    rw [index] at found
    rcases Nat.lt_or_ge number stored.length with old | new
    · rw [List.getElem?_append_left (length ▸ old)] at found
      obtain ⟨here, at', known⟩ := fills.described number entry found
      exact ⟨here, by rw [List.getElem?_append_left old, at'], known.append_stored old.le _⟩
    · rw [List.getElem?_append_right (length ▸ new), length, List.getElem?_singleton] at found
      obtain ⟨behind, same⟩ := Option.ite_none_right_eq_some.mp found
      obtain rfl := Option.some.inj same
      obtain rfl : number = stored.length := by omega
      exact ⟨block, List.getElem?_concat_length, last⟩

/-- Storing a whole block leaves the builder with nothing pending. -/
theorem flush_complete (fills : Fills origin builder rows stored)
    (positive : 0 < origin.rowsPerBlock.toNat)
    (complete : builder.pendingRows = origin.rowsPerBlock)
    (flushed : builder.flush = (.ok (), full)) :
    ∃ stored', Fills origin full rows stored' ∧ full.pendingRows.toNat < origin.rowsPerBlock.toNat := by
  have occupied : builder.pendingRows ≠ 0 := by
    intro none
    rw [← complete, none] at positive
    exact absurd positive (by decide)
  obtain ⟨block, rfl, shelves⟩ := fills.flush occupied flushed
  have covered : (stored ++ [block]).length * origin.rowsPerBlock.toNat = rows.length := by
    rw [List.length_append, List.length_singleton, Nat.succ_mul, ← fills.covered, complete]
  refine ⟨_, { shelves with covered, pending := ?_, room := Nat.zero_le _ }, positive⟩
  rw [covered, List.drop_length]
  rfl

/-- A call that encodes its row and succeeds has added the row. -/
theorem write [Host] [CalendarText] (fills : Fills origin builder rows stored)
    (positive : 0 < origin.rowsPerBlock.toNat)
    (resting : builder.pendingRows.toNat < origin.rowsPerBlock.toNat)
    (encoded : Row.image? origin.layout values = some row)
    (accepted : (builder.write values).1.isOk = true) :
    ∃ stored', Fills origin (builder.write values).2 (rows ++ [row]) stored' ∧
      (builder.write values).2.pendingRows.toNat < origin.rowsPerBlock.toNat := by
  have appended := fills.append resting (Row.length_of_image? encoded)
  obtain ⟨-, -, rowsPerBlock, -⟩ := appended.shape
  rw [write_counted (fills.shape.2.1 ▸ encoded) (fills.isCrowded_eq_false resting), rowsPerBlock]
    at accepted ⊢
  split_ifs at accepted ⊢ with complete
  · cases flushed : (builder.append row).flush with
    | mk answer full =>
        rw [flushed] at accepted
        cases answer with
        | error fault => cases accepted
        | ok done => exact appended.flush_complete positive complete flushed
  · exact ⟨stored, appended, UInt32.lt_of_le_of_ne appended.room complete⟩

/-- As long as no call loses its block, the rows that are encoded fill one block after the other. -/
theorem writeAll [Host] [CalendarText] (fills : Fills origin builder rows stored)
    (positive : 0 < origin.rowsPerBlock.toNat)
    (resting : builder.pendingRows.toNat < origin.rowsPerBlock.toNat) (calls : List (List Value))
    (flushed : ∀ call ∈ calls.zip (builder.writeAll calls).1,
      (Row.image? origin.layout call.1).isSome → call.2.isOk = true) :
    (builder.writeAll calls).1.map Except.isOk =
        calls.map (fun values => (Row.image? origin.layout values).isSome) ∧
      ∃ stored', Fills origin (builder.writeAll calls).2
        (rows ++ calls.filterMap (Row.image? origin.layout)) stored' := by
  induction calls generalizing builder rows stored with
  | nil => exact ⟨rfl, stored, by rwa [List.filterMap_nil, List.append_nil]⟩
  | cons values calls ih =>
      rw [writeAll_cons, List.zip_cons_cons] at flushed
      obtain ⟨here, later⟩ := List.forall_mem_cons.mp flushed
      rw [writeAll_cons, List.map_cons, List.map_cons]
      cases encoded : Row.image? origin.layout values with
      | none =>
          obtain ⟨fault, refused⟩ := write_unencoded (fills.shape.2.1 ▸ encoded)
          rw [refused] at later ⊢
          obtain ⟨answers, fills'⟩ := ih fills resting later
          rw [List.filterMap_cons_none encoded, answers]
          exact ⟨rfl, fills'⟩
      | some row =>
          have accepted := here (by rw [encoded]; rfl)
          obtain ⟨stored', fills', resting'⟩ := fills.write positive resting encoded accepted
          obtain ⟨answers, fills''⟩ := ih fills' resting' later
          rw [List.filterMap_cons_some encoded, List.append_cons, answers, accepted]
          exact ⟨rfl, fills''⟩

/-- Once the last rows are stored, there are just as many blocks as the rows need. -/
theorem finish (fills : Fills origin builder rows stored) (positive : 0 < origin.rowsPerBlock.toNat)
    (flushed : builder.flush = (.ok (), full)) :
    ∃ stored', Shelves origin full rows stored' ∧
      rows.length ≤ stored'.length * origin.rowsPerBlock.toNat ∧
      stored'.length * origin.rowsPerBlock.toNat < rows.length + origin.rowsPerBlock.toNat := by
  have covered := fills.covered
  have room := fills.room
  by_cases idle : builder.pendingRows = 0
  · rw [Builder.flush, if_pos idle] at flushed
    obtain ⟨-, rfl⟩ := Prod.mk.inj flushed
    rw [idle, UInt32.toNat_zero] at covered
    exact ⟨stored, fills.toShelves, by omega, by omega⟩
  · have some : builder.pendingRows.toNat ≠ 0 := fun none => idle (UInt32.toNat_inj.mp none)
    obtain ⟨block, rfl, shelves⟩ := fills.flush idle flushed
    refine ⟨_, shelves, ?_⟩
    rw [List.length_append, List.length_singleton, Nat.succ_mul]
    omega

end Fills

end Builder

/-- The parts of a file that holds some rows in some blocks, each of which starts where the one
before it ends. -/
structure Geometry [Checksum] (builder : Builder) (rows : List Bytes) (bytes : Bytes)
    (header : FileHeader) (stored : List StoredBlock) (index : List BlockEntry) : Prop where
  parts : bytes = header.toBytes ++ builder.schema ++ stored.flatMap Builder.blockBytes ++
    index.flatMap BlockEntry.toBytes ++
    Bytes.ofNat 8 (blockStart builder.schema.length stored stored.length)
  ends : (header.toBytes ++ builder.schema ++ stored.flatMap Builder.blockBytes).length =
    blockStart builder.schema.length stored stored.length
  length : bytes.length =
    blockStart builder.schema.length stored stored.length + BlockEntry.size * stored.length + 8
  indexed : index.length = stored.length
  described : ∀ (block : Nat) (entry : BlockEntry), index[block]? = some entry →
    ∃ here, stored[block]? = some here ∧ Describes builder rows stored block entry here
  blocks : stored.length = rows.length ⌈/⌉ builder.rowsPerBlock.toNat
  full : ∀ block, block + 1 < stored.length →
    (blockRows builder.rowsPerBlock.toNat rows block).length = builder.rowsPerBlock.toNat
  occupied : ∀ block < stored.length, 0 < (blockRows builder.rowsPerBlock.toNat rows block).length
  read : peek bytes = .ok header
  headerRows : header.rows = UInt64.ofNat rows.length
  headerBlocks : header.blocks = UInt64.ofNat stored.length
  headerSchema : header.schemaLength.toNat = builder.schema.length
  headerRow : header.rowLength.toNat = builder.layout.rowLength
  headerColumns : header.columns.toNat = builder.layout.length
  headerPerBlock : header.rowsPerBlock = builder.rowsPerBlock

theorem Builder.Shelves.geometry [Host] [Checksum] {origin full : Builder} {rows : List Bytes}
    {stored : List StoredBlock} (shelves : Builder.Shelves origin full rows stored)
    (admissible : origin.Admissible)
    (least : rows.length ≤ stored.length * origin.rowsPerBlock.toNat)
    (most : stored.length * origin.rowsPerBlock.toNat <
      rows.length + origin.rowsPerBlock.toNat) :
    Geometry origin rows full.sealed full.header stored full.index.reverse := by
  obtain ⟨codec, layout, rowsPerBlock, schema⟩ := shelves.shape
  have positive := admissible.rowsPerBlock
  have count (block : Nat) : (blockRows origin.rowsPerBlock.toNat rows block).length =
      min origin.rowsPerBlock.toNat (rows.length - block * origin.rowsPerBlock.toNat) := by
    rw [blockRows, List.length_take, List.length_drop]
  have offset : full.offset = blockStart origin.schema.length stored stored.length := by
    rw [blockStart_length, ← shelves.blocks, ← schema]
    rfl
  exact {
    parts := by rw [sealed, offset, shelves.blocks, schema]
    ends := by
      rw [blockStart_length, List.length_append, List.length_append, FileHeader.length_toBytes]
    length := by rw [length_sealed, offset, shelves.indexed, Nat.mul_comm]
    indexed := full.index.length_reverse.trans shelves.indexed
    described := shelves.described
    blocks := by
      rw [Nat.ceilDiv_eq_add_pred_div]
      exact (Nat.div_eq_of_lt_le (by omega) (by rw [Nat.succ_mul]; omega)).symm
    full := fun block inside => by
      have behind := Nat.mul_le_mul_right origin.rowsPerBlock.toNat inside
      rw [Nat.succ_mul, Nat.succ_mul] at behind
      rw [count]
      omega
    occupied := fun block inside => by
      have behind := Nat.mul_le_mul_right origin.rowsPerBlock.toNat inside
      rw [Nat.succ_mul] at behind
      rw [count]
      omega
    read := Builder.peek_sealed full
    headerRows := by rw [← shelves.counted]; rfl
    headerBlocks := by rw [← shelves.indexed]; rfl
    headerSchema := schema ▸ UInt32.toNat_ofNat_of_lt' (schema ▸ admissible.schemaLength)
    headerRow := layout ▸ UInt32.toNat_ofNat_of_lt' (layout ▸ admissible.rowLength)
    headerColumns := layout ▸
      UInt16.toNat_ofNat_of_lt' (layout ▸ Nat.lt_succ_of_le admissible.columns)
    headerPerBlock := rowsPerBlock }

/-- A finished file has exactly its parts, and its index and its header say where they stand and how
many there are. Calls may fail while their rows are encoded. As long as no block is refused, the
rows of the others fill one block after the other, and only the last block may have room left. -/
theorem finish_geometry [Host] [Checksum] [CalendarText] {codec : BlockCodec} {layout : Layout}
    {rowsPerBlock : UInt32} {builder : Builder}
    (created : Builder.create codec layout rowsPerBlock = .ok builder)
    (calls : List (List Value))
    (flushed : ∀ call ∈ calls.zip (builder.writeAll calls).1,
      (Row.image? layout call.1).isSome → call.2.isOk = true)
    {count : Nat} {bytes : Bytes}
    (finished : (builder.writeAll calls).2.finish = (.ok count, bytes)) :
    builder.codec = codec ∧ builder.layout = layout ∧ builder.rowsPerBlock = rowsPerBlock ∧
      Schema.encode layout = .ok builder.schema ∧
      count = (builder.writeAll calls).1.countP Except.isOk ∧
      count = (calls.filterMap (Row.image? layout)).length ∧
      ∃ header stored index,
        Geometry builder (calls.filterMap (Row.image? layout)) bytes header stored index := by
  obtain ⟨fresh, admissible⟩ := Builder.create_eq_ok created
  obtain ⟨rfl, rfl, rfl⟩ : builder.codec = codec ∧ builder.layout = layout ∧
      builder.rowsPerBlock = rowsPerBlock := by
    rw [fresh]
    exact ⟨rfl, rfl, rfl⟩
  have positive := admissible.rowsPerBlock
  have resting := (Builder.tracks_create created).2
  obtain ⟨full, closed, rfl, -, rfl⟩ := Builder.finish_eq_ok finished
  obtain ⟨answers, stored, fills⟩ :=
    (Builder.fills_create created).writeAll positive resting calls flushed
  rw [List.nil_append] at fills
  obtain ⟨stored', shelves, least, most⟩ := fills.finish positive closed
  refine ⟨rfl, rfl, rfl, admissible.schema, ?_, fills.counted, _, _, _,
    shelves.geometry admissible least most⟩
  rw [fills.counted, Builder.countP_isOk answers]

/-- Three rows in blocks of two, with a call between them that has no number. -/
theorem finish_geometry_second_block :
    let layout : Layout := [⟨⟨"n", .integer .int8, 0, 1⟩, []⟩]
    let call (number : Int) : List Value := [.integer .int8 (IntType.int8.wrap number)]
    let calls := [call 5, call (-6), [.string "seven"], call 8]
    let builder : Builder :=
      ⟨.passthrough, layout, 2, [1, 0, 110, 1, 0, 0, 0, 0, 1, 0, 0, 0], [], 0, 0, [], []⟩
    Builder.create .passthrough layout 2 = .ok builder ∧ ∃ bytes header stored index,
      (builder.writeAll calls).2.finish = (.ok 3, bytes) ∧
      Geometry builder [[5], [250], [8]] bytes header stored index ∧ stored.length = 2 ∧
      (blockRows 2 [[5], [250], [8]] 1).length = 1 := by
  intro layout call calls builder
  have images : calls.filterMap (Row.image? layout) = [[5], [250], [8]] := by decide
  have created : Builder.create .passthrough layout 2 = .ok builder := rfl
  have finished : (builder.writeAll calls).2.finish.1 = .ok 3 := by decide +kernel
  have flushed : ∀ answered ∈ calls.zip (builder.writeAll calls).1,
      (Row.image? layout answered.1).isSome → answered.2.isOk = true := by
    decide +kernel
  obtain ⟨-, -, -, -, -, -, header, stored, index, geometry⟩ :=
    finish_geometry created calls flushed (Prod.ext finished rfl)
  rw [images] at geometry
  have blocks : stored.length = 3 ⌈/⌉ 2 := geometry.blocks
  exact ⟨created, _, header, stored, index, Prod.ext finished rfl, geometry,
    blocks.trans (by decide), rfl⟩

end RowStore.RowFile
