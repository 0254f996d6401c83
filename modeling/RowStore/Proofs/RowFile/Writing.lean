import Mathlib
import RowStore.Proofs.Outcome
import RowStore.Proofs.Row.Buffer
import RowStore.Proofs.RowFile.Blocks
import RowStore.RowFile.Builder

/-! Row files while they are written.

Whatever calls are made, the rows that a builder accepted are in its blocks or pending, in order and
each once. The invariant says where every block stands, and one call keeps it.
-/

namespace RowStore

/-- A codec stores the rows of a block within the bounds of the file format, and restores them. -/
def BlockCodec.Keeps (codec : BlockCodec) (rowLength : Nat) (raw : Bytes) : Prop :=
  ∃ stored, codec.compress rowLength raw = .ok stored ∧ stored.sidecar.length ≤ 65535 ∧
    stored.payload.length < UInt32.size ∧ raw.length < UInt32.size ∧
    codec.expand rowLength raw.length stored = .ok raw

namespace RowFile

section Shapes

variable {codec : BlockCodec} {layout : Layout} {rowsPerBlock : UInt32} {builder : Builder}
  {rows : List Bytes}

namespace Builder

/-- What `create` has checked. -/
structure Admissible (builder : Builder) : Prop where
  rowsPerBlock : 0 < builder.rowsPerBlock.toNat
  columns : builder.layout.length ≤ 65535
  valid : ∀ column ∈ builder.layout, column.validate = .ok ()
  placed : ∀ column ∈ builder.layout, column.isPlaced = true
  rowLength : builder.layout.rowLength < UInt32.size
  schema : Schema.encode builder.layout = .ok builder.schema
  schemaLength : builder.schema.length < UInt32.size

/-- Both builders write a file of one shape. -/
def SameShape (origin builder : Builder) : Prop :=
  builder.codec = origin.codec ∧ builder.layout = origin.layout ∧
    builder.rowsPerBlock = origin.rowsPerBlock ∧ builder.schema = origin.schema

theorem SameShape.refl (builder : Builder) : SameShape builder builder := ⟨rfl, rfl, rfl, rfl⟩

/-- The codec keeps every block of the rows. -/
def Keeps (builder : Builder) (rows : List Bytes) : Prop :=
  ∀ block, blockRows builder.rowsPerBlock.toNat rows block ≠ [] →
    builder.codec.Keeps builder.layout.rowLength
      (blockRows builder.rowsPerBlock.toNat rows block).flatten

theorem create_eq_ok (created : create codec layout rowsPerBlock = .ok builder) :
    builder = ⟨codec, layout, rowsPerBlock, builder.schema, [], 0, 0, [], []⟩ ∧
      builder.Admissible := by
  rw [create] at created
  simp only [Outcome.guard_eq_ok_iff, Outcome.bind_eq_ok_iff, Outcome.forM_eq_ok_iff] at created
  obtain ⟨positive, few, ⟨_, checked, narrow, schema, encoded, short, same⟩⟩ := created
  cases same
  have checks : ∀ column ∈ layout, column.validate = .ok () ∧ column.isPlaced = true := by
    intro column mem
    have check := checked column mem
    rw [checkColumn, Outcome.bind_eq_ok_iff] at check
    obtain ⟨_, valid, placed⟩ := check
    refine ⟨Outcome.mapError_eq_ok_iff.mp valid, ?_⟩
    split at placed
    · assumption
    · contradiction
  refine ⟨rfl, ?_, not_lt.mp few, fun column mem => (checks column mem).1,
    fun column mem => (checks column mem).2, not_le.mp narrow, encoded, not_le.mp short⟩
  rw [Nat.pos_iff_ne_zero]
  intro zero
  exact positive (UInt32.toNat_inj.mp zero)

/-- Without compression, blocks are kept as long as all rows together are short. -/
theorem keeps_passthrough (short : rows.flatten.length < UInt32.size)
    (plain : builder.codec = .passthrough) : builder.Keeps rows := by
  intro block _
  have less := length_flatten_blockRows_le builder.rowsPerBlock.toNat rows block
  rw [plain]
  have inside := lt_of_le_of_lt less short
  exact ⟨⟨[], _⟩, rfl, Nat.zero_le _, inside, inside, rfl⟩

/-- The pending rows of a block that is not full can be counted. -/
theorem isCrowded_of_resting (resting : builder.pendingRows.toNat < builder.rowsPerBlock.toNat) :
    builder.isCrowded = false := by
  have most := builder.rowsPerBlock.toNat_lt_size
  rw [isCrowded, decide_eq_false_iff_not]
  omega

theorem toNat_pendingRows_append (counted : builder.isCrowded = false) (row : Bytes) :
    (builder.append row).pendingRows.toNat = builder.pendingRows.toNat + 1 := by
  rw [isCrowded, decide_eq_false_iff_not, not_le] at counted
  rw [append, UInt32.toNat_add]
  exact Nat.mod_eq_of_lt counted

theorem pendingRows_append_ne_zero (counted : builder.isCrowded = false) (row : Bytes) :
    (builder.append row).pendingRows ≠ 0 := by
  intro none
  have some := toNat_pendingRows_append counted row
  rw [none] at some
  exact absurd some.symm (Nat.succ_ne_zero _)

end Builder

end Shapes

variable [Checksum]

/-- An entry of the index leads to a block that was stored from these rows. -/
structure Locates (codec : BlockCodec) (rowLength start : Nat) (blocks : Bytes) (entry : BlockEntry)
    (raw : Bytes) (stored : StoredBlock) : Prop where
  stands : ∃ before after, blocks = before ++ Builder.blockBytes stored ++ after ∧
    entry.offset = UInt64.ofNat (start + before.length)
  sidecar : stored.sidecar.length ≤ 65535
  storedLength : entry.storedLength.toNat = stored.payload.length
  rawLength : entry.rawLength.toNat = raw.length
  checksum : entry.checksum = Checksum.ofPayload stored.payload
  restores : codec.expand rowLength raw.length stored = .ok raw

namespace Locates

variable {codec : BlockCodec} {rowLength start : Nat} {blocks : Bytes} {entry : BlockEntry}
  {raw : Bytes} {stored : StoredBlock}

theorem append (located : Locates codec rowLength start blocks entry raw stored) (more : Bytes) :
    Locates codec rowLength start (blocks ++ more) entry raw stored := by
  obtain ⟨before, after, shape, offset⟩ := located.stands
  exact { located with
    stands := ⟨before, after ++ more, by rw [shape, List.append_assoc _ after], offset⟩ }

end Locates

namespace Builder

/-- The blocks of a builder are the first blocks of these rows, each of them full. -/
def Indexes (builder : Builder) (rows : List Bytes) : Prop :=
  ∀ (block : Nat) (entry : BlockEntry), builder.index.reverse[block]? = some entry →
    entry.firstRow = UInt64.ofNat (block * builder.rowsPerBlock.toNat) ∧
    ∃ stored, Locates builder.codec builder.layout.rowLength
      (FileHeader.size + builder.schema.length) builder.blocks entry
      (blockRows builder.rowsPerBlock.toNat rows block).flatten stored

/-- The builder once its pending rows are stored. -/
def stored (builder : Builder) (block : StoredBlock) : Builder :=
  { builder with
    pending := []
    pendingRows := 0
    blocks := builder.blocks ++ blockBytes block
    index := builder.entry block :: builder.index }

/-- The rows accepted so far are in the blocks or pending. -/
structure Tracks (origin builder : Builder) (rows : List Bytes) : Prop where
  shape : SameShape origin builder
  counted : builder.rows = rows.length
  covered : builder.index.length * builder.rowsPerBlock.toNat + builder.pendingRows.toNat = rows.length
  pending : builder.pending = (rows.drop (builder.index.length * builder.rowsPerBlock.toNat)).flatten
  room : builder.pendingRows.toNat ≤ builder.rowsPerBlock.toNat
  indexes : builder.Indexes rows

/-- All rows are in the blocks. -/
structure Covers (origin builder : Builder) (rows : List Bytes) : Prop where
  shape : SameShape origin builder
  counted : builder.rows = rows.length
  enough : rows.length ≤ builder.index.length * builder.rowsPerBlock.toNat
  indexes : builder.Indexes rows

/-- The answers to a series of calls, and the builder after them. -/
def writeAll [Host] [CalendarText] (builder : Builder) :
    List (List Value) → List (Except Fault Unit) × Builder
  | [] => ([], builder)
  | values :: calls =>
      let (answer, next) := builder.write values
      let (answers, last) := writeAll next calls
      (answer :: answers, last)

variable {codec : BlockCodec} {layout : Layout} {rowsPerBlock : UInt32} {origin builder : Builder}
  {rows : List Bytes} {values : List Value} {row : Bytes}

theorem tracks_create (created : create codec layout rowsPerBlock = .ok builder) :
    Tracks builder builder [] ∧ builder.pendingRows.toNat < builder.rowsPerBlock.toNat := by
  obtain ⟨fresh, admissible⟩ := create_eq_ok created
  have indexes : builder.Indexes [] := by
    intro block entry found
    rw [fresh] at found
    simp at found
  have pendingRows : builder.pendingRows = 0 := by rw [fresh]
  refine ⟨⟨.refl builder, ?_, ?_, ?_, ?_, indexes⟩, ?_⟩
  · rw [fresh]
    rfl
  · rw [fresh]
    simp
  · rw [fresh]
    simp
  · rw [pendingRows]
    exact Nat.zero_le _
  · rw [pendingRows]
    exact admissible.rowsPerBlock

section Calls

variable [Host] [CalendarText]

theorem write_encoded (encoded : Row.image? builder.layout values = some row) :
    builder.write values =
      if builder.isCrowded then
        (.error (.trap .overflow), { builder with pending := builder.pending ++ row })
      else if (builder.append row).pendingRows = (builder.append row).rowsPerBlock
      then (builder.append row).flush else (.ok (), builder.append row) := by
  rw [Row.image?] at encoded
  split at encoded
  · rename_i wrote
    cases encoded
    rw [Builder.write, wrote]
  · contradiction

theorem write_counted (encoded : Row.image? builder.layout values = some row)
    (counted : builder.isCrowded = false) :
    builder.write values =
      if (builder.append row).pendingRows = (builder.append row).rowsPerBlock
      then (builder.append row).flush else (.ok (), builder.append row) := by
  rw [write_encoded encoded, counted, if_neg Bool.false_ne_true]

theorem write_unencoded (refused : Row.image? builder.layout values = none) :
    ∃ fault, builder.write values = (.error fault, builder) := by
  rw [Row.image?] at refused
  split at refused
  · contradiction
  · rename_i wrote
    rw [Builder.write, wrote]
    exact ⟨_, rfl⟩

end Calls

namespace Tracks

theorem pending_eq (tracks : Tracks origin builder rows) :
    builder.pending = (blockRows builder.rowsPerBlock.toNat rows builder.index.length).flatten := by
  have covered := tracks.covered
  have room := tracks.room
  rw [tracks.pending, blockRows_last]
  rw [Nat.succ_mul]
  omega

/-- Storing the pending rows adds the block that comes next to the index. -/
theorem indexes_stored (tracks : Tracks origin builder rows) {stored : StoredBlock}
    (sidecar : stored.sidecar.length ≤ 65535) (payload : stored.payload.length < UInt32.size)
    (short : builder.pending.length < UInt32.size)
    (restores : builder.codec.expand builder.layout.rowLength builder.pending.length stored =
      .ok builder.pending) : (builder.stored stored).Indexes rows := by
  intro block entry found
  simp only [Builder.stored, List.reverse_cons] at found ⊢
  by_cases old : block < builder.index.length
  · rw [List.getElem?_append_left (by simpa using old)] at found
    obtain ⟨firstRow, stored', located⟩ := tracks.indexes block entry found
    exact ⟨firstRow, stored', located.append _⟩
  · rw [List.getElem?_append_right (by simpa using old), List.length_reverse,
      List.getElem?_singleton] at found
    have last : block = builder.index.length ∧ entry = builder.entry stored := by
      split at found
      · cases found
        exact ⟨by omega, rfl⟩
      · contradiction
    obtain ⟨rfl, rfl⟩ := last
    have counted := tracks.counted
    have covered := tracks.covered
    refine ⟨congrArg UInt64.ofNat (by omega), stored, ?_⟩
    rw [← tracks.pending_eq]
    refine ⟨⟨builder.blocks, [], by simp, rfl⟩, sidecar, ?_, ?_, rfl, restores⟩
    · exact UInt32.toNat_ofNat_of_lt' payload
    · exact UInt32.toNat_ofNat_of_lt' short

/-- Storing the pending rows succeeds where the codec keeps them, and leaves none. -/
theorem flush (tracks : Tracks origin builder rows)
    (keeps : builder.pendingRows ≠ 0 →
      builder.codec.Keeps builder.layout.rowLength builder.pending) :
    ∃ full, builder.flush = (.ok (), full) ∧ Covers origin full rows ∧
      (builder.pendingRows = builder.rowsPerBlock →
        Tracks origin full rows ∧ full.pendingRows = 0) := by
  have covered := tracks.covered
  by_cases idle : builder.pendingRows = 0
  -- With nothing pending, all rows are in full blocks already.
  · refine ⟨builder, by rw [Builder.flush, if_pos idle], ?_, fun _ => ⟨tracks, idle⟩⟩
    rw [idle, UInt32.toNat_zero] at covered
    exact ⟨tracks.shape, tracks.counted, covered.ge, tracks.indexes⟩
  obtain ⟨block, compressed, sidecar, payload, short, restores⟩ := keeps idle
  have indexes := tracks.indexes_stored sidecar payload short restores
  have room := tracks.room
  have shape : SameShape origin (builder.stored block) := tracks.shape
  have length : (builder.stored block).index.length * (builder.stored block).rowsPerBlock.toNat =
      builder.index.length * builder.rowsPerBlock.toNat + builder.rowsPerBlock.toNat :=
    Nat.succ_mul _ _
  refine ⟨builder.stored block, ?_, ⟨shape, tracks.counted, by omega, indexes⟩, ?_⟩
  · simp only [Builder.flush, idle, if_false, compressed, not_lt.mpr sidecar, not_le.mpr payload,
      not_le.mpr short, Builder.stored]
  · intro complete
    refine ⟨⟨shape, tracks.counted, ?_, ?_, Nat.zero_le _, indexes⟩, rfl⟩
    · rw [length]
      exact (congrArg (_ + ·) (congrArg UInt32.toNat complete.symm)).trans covered
    · rw [length, List.drop_eq_nil_of_le (by omega), List.flatten_nil]
      rfl

theorem flush_complete (tracks : Tracks origin builder rows)
    (complete : builder.pendingRows = builder.rowsPerBlock)
    (occupied : builder.pendingRows ≠ 0)
    (keeps : builder.codec.Keeps builder.layout.rowLength builder.pending) :
    ∃ full, builder.flush = (.ok (), full) ∧ Tracks origin full rows ∧
      full.pendingRows.toNat < full.rowsPerBlock.toNat := by
  obtain ⟨full, flushed, -, rested⟩ := tracks.flush fun _ => keeps
  obtain ⟨tracks', idle⟩ := rested complete
  refine ⟨full, flushed, tracks', ?_⟩
  rw [idle, tracks'.shape.2.2.1, ← tracks.shape.2.2.1, ← complete]
  exact Nat.pos_iff_ne_zero.mpr fun none => occupied (UInt32.toNat_inj.mp none)

theorem append (tracks : Tracks origin builder rows)
    (resting : builder.pendingRows.toNat < builder.rowsPerBlock.toNat) (row : Bytes) :
    Tracks origin (builder.append row) (rows ++ [row]) := by
  have covered := tracks.covered
  have counted := toNat_pendingRows_append (isCrowded_of_resting resting) row
  refine ⟨tracks.shape, ?_, ?_, ?_, counted.trans_le resting, ?_⟩
  · rw [List.length_append, ← tracks.counted]
    rfl
  · rw [counted, List.length_append, ← covered, Nat.add_assoc]
    rfl
  · have kept : builder.index.length * builder.rowsPerBlock.toNat ≤ rows.length := by omega
    have pending : (builder.append row).pending = builder.pending ++ row := rfl
    rw [pending, tracks.pending]
    simp only [Builder.append]
    rw [List.drop_append_of_le_length kept, List.flatten_append, List.flatten_singleton]
  -- The blocks in the index are full, so the new row is in none of them.
  · intro block entry found
    have earlier : block + 1 ≤ builder.index.length := by
      have inside := (List.getElem?_eq_some_iff.mp found).1
      rwa [List.length_reverse] at inside
    have full := Nat.mul_le_mul_right builder.rowsPerBlock.toNat earlier
    have located := tracks.indexes block entry found
    rwa [← blockRows_append (by omega) [row]] at located

/-- What the codec keeps of all rows are the pending ones too, when they are a block of their own. -/
theorem keeps_pending (tracks : Tracks origin builder rows) {later : List Bytes}
    (keeps : origin.Keeps (rows ++ later)) (occupied : builder.pendingRows ≠ 0)
    (complete : builder.pendingRows = builder.rowsPerBlock ∨ later = []) :
    builder.codec.Keeps builder.layout.rowLength builder.pending := by
  have covered := tracks.covered
  have some : builder.pendingRows.toNat ≠ 0 := fun none => occupied (UInt32.toNat_inj.mp none)
  have same : blockRows builder.rowsPerBlock.toNat (rows ++ later) builder.index.length =
      blockRows builder.rowsPerBlock.toNat rows builder.index.length := by
    rcases complete with complete | rfl
    · refine blockRows_append ?_ later
      rw [Nat.succ_mul, ← complete]
      rw [← complete] at covered
      exact covered.le
    · rw [List.append_nil]
  have filled : blockRows builder.rowsPerBlock.toNat rows builder.index.length ≠ [] := by
    have room := tracks.room
    rw [blockRows_last (by rw [Nat.succ_mul]; omega), ← List.length_pos_iff, List.length_drop]
    omega
  obtain ⟨codec, layout, rowsPerBlock, -⟩ := tracks.shape
  have kept := keeps builder.index.length
  rw [← codec, ← layout, ← rowsPerBlock, same] at kept
  rw [tracks.pending_eq]
  exact kept filled

theorem finish [Host] (tracks : Tracks origin builder rows) (keeps : origin.Keeps rows) :
    ∃ full, builder.finish = (.ok rows.length, full.sealed) ∧ Covers origin full rows := by
  rw [← List.append_nil rows] at keeps
  obtain ⟨full, flushed, covers, -⟩ := tracks.flush fun occupied =>
    tracks.keeps_pending keeps occupied (.inr rfl)
  refine ⟨full, ?_, covers⟩
  rw [Builder.finish, flushed, ← covers.counted]

variable [Host] [CalendarText]

/-- A call that encodes its row adds the row. -/
theorem write (tracks : Tracks origin builder rows)
    (resting : builder.pendingRows.toNat < builder.rowsPerBlock.toNat)
    (encoded : Row.image? origin.layout values = some row) {later : List Bytes}
    (keeps : origin.Keeps (rows ++ row :: later)) :
    ∃ next, builder.write values = (.ok (), next) ∧ Tracks origin next (rows ++ [row]) ∧
      next.pendingRows.toNat < next.rowsPerBlock.toNat := by
  have appended := tracks.append resting row
  have counted := isCrowded_of_resting resting
  have occupied := pendingRows_append_ne_zero counted row
  rw [write_counted (tracks.shape.2.1 ▸ encoded) counted]
  split_ifs with complete
  · rw [List.append_cons] at keeps
    exact appended.flush_complete complete occupied
      (appended.keeps_pending keeps occupied (.inl complete))
  · exact ⟨_, rfl, appended, UInt32.lt_of_le_of_ne appended.room complete⟩

/-- Of a series of calls, those are accepted that encode their rows, and exactly these rows are
added. -/
theorem writeAll (tracks : Tracks origin builder rows)
    (resting : builder.pendingRows.toNat < builder.rowsPerBlock.toNat) (calls : List (List Value))
    (keeps : origin.Keeps (rows ++ calls.filterMap (Row.image? origin.layout))) :
    (builder.writeAll calls).1.map Except.isOk =
        calls.map (fun values => (Row.image? origin.layout values).isSome) ∧
      Tracks origin (builder.writeAll calls).2
        (rows ++ calls.filterMap (Row.image? origin.layout)) := by
  induction calls generalizing builder rows with
  | nil =>
      rw [List.filterMap_nil, List.append_nil]
      exact ⟨rfl, tracks⟩
  | cons values calls ih =>
      rw [Builder.writeAll]
      cases encoded : Row.image? origin.layout values with
      | none =>
          obtain ⟨fault, refused⟩ := write_unencoded (tracks.shape.2.1 ▸ encoded)
          rw [List.filterMap_cons_none encoded] at keeps ⊢
          obtain ⟨answers, tracks'⟩ := ih tracks resting keeps
          rw [refused]
          refine ⟨?_, tracks'⟩
          simp only [List.map_cons, answers, encoded]
          rfl
      | some row =>
          rw [List.filterMap_cons_some encoded] at keeps ⊢
          obtain ⟨next, accepted, added, rested⟩ := tracks.write resting encoded keeps
          rw [List.append_cons] at keeps ⊢
          obtain ⟨answers, tracks'⟩ := ih added rested keeps
          rw [accepted]
          refine ⟨?_, tracks'⟩
          simp only [List.map_cons, answers, encoded]
          rfl

/-- The rows of a cursor are added if all of them are encoded. -/
theorem writeRows (tracks : Tracks origin builder rows)
    (resting : builder.pendingRows.toNat < builder.rowsPerBlock.toNat) {cursor : RowCursor}
    {numbers : List Nat} {images : List Bytes}
    (encodes : List.Forall₂ (fun number image => ∃ values, cursor.rowValues number = .ok values ∧
      Row.image? origin.layout values = some image) numbers images)
    (keeps : origin.Keeps (rows ++ images)) (written : Nat) :
    ∃ last, Builder.writeRows cursor builder written numbers =
        (.ok (written + numbers.length), last) ∧ Tracks origin last (rows ++ images) := by
  induction encodes generalizing builder rows written with
  | nil =>
      rw [List.append_nil]
      exact ⟨builder, rfl, tracks⟩
  | @cons number image numbers images here later ih =>
      obtain ⟨values, valued, encoded⟩ := here
      obtain ⟨next, accepted, added, rested⟩ := tracks.write resting encoded keeps
      rw [List.append_cons] at keeps ⊢
      obtain ⟨last, finished, tracks'⟩ := ih added rested keeps (written + 1)
      refine ⟨last, ?_, tracks'⟩
      rw [List.length_cons, Nat.add_comm numbers.length, ← Nat.add_assoc, ← finished]
      simp only [Builder.writeRows, valued, accepted]

end Tracks

end Builder

end RowFile

end RowStore
