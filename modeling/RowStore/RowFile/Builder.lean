import RowStore.Block.Codec
import RowStore.Cursor
import RowStore.Row.Buffer
import RowStore.RowFile.Entry
import RowStore.RowFile.Header
import RowStore.RowFile.Schema

/-! Row files being written.

A file is its header, its schema, its blocks, the index of the blocks, and the offset of the index.
A block is the length of its sidecar in two bytes, the sidecar and the payload. Rows are gathered
until a block is full. The header stays zero until the file is finished. The rows of a block are counted
in 32 bits; counting further traps.
-/

namespace RowStore.RowFile

structure Builder where
  codec : BlockCodec
  layout : Layout
  rowsPerBlock : UInt32
  schema : Bytes
  /-- Encoded rows that are in no block yet. -/
  pending : Bytes
  /-- Rows written since the last block was complete. -/
  pendingRows : UInt32
  rows : Nat
  /-- The blocks as they stand in the file, one behind the other. -/
  blocks : Bytes
  /-- The index of the blocks, the last one first. -/
  index : List BlockEntry

namespace Builder

/-- Every column of a file needs a place. -/
def checkColumn (column : Column) : Except Fault Unit := do
  Outcome.ofData column.validate
  if column.isPlaced then .ok () else .error (.unplaced column.name)

/-- An empty file, if files can have this shape. -/
def create (codec : BlockCodec) (layout : Layout) (rowsPerBlock : UInt32) :
    Except Fault Builder := do
  if rowsPerBlock = 0 then throw .noRowsPerBlock
  if 65535 < layout.length then throw (.tooManyColumns layout.length)
  layout.forM checkColumn
  if UInt32.size ≤ layout.rowLength then throw (.oversize .rowLayout)
  let schema ← Schema.encode layout
  if UInt32.size ≤ schema.length then throw (.oversize .schema)
  .ok ⟨codec, layout, rowsPerBlock, schema, [], 0, 0, [], []⟩

/-- Where the next block starts. -/
def offset (builder : Builder) : Nat :=
  FileHeader.size + builder.schema.length + builder.blocks.length

/-- A block as it stands in the file. -/
def blockBytes (stored : StoredBlock) : Bytes :=
  Bytes.ofNat 2 stored.sidecar.length ++ stored.sidecar ++ stored.payload

/-- The index entry of the pending rows, stored at the end of the blocks. -/
def entry [Checksum] (builder : Builder) (stored : StoredBlock) : BlockEntry where
  offset := UInt64.ofNat builder.offset
  firstRow := UInt64.ofNat (builder.rows - builder.pendingRows.toNat)
  storedLength := UInt32.ofNat stored.payload.length
  rawLength := UInt32.ofNat builder.pending.length
  checksum := Checksum.ofPayload stored.payload

/-- Store the pending rows as a block. A refusal does not give the rows back. -/
def flush [Checksum] (builder : Builder) : Except Fault Unit × Builder :=
  if builder.pendingRows = 0 then (.ok (), builder)
  else
    let emptied := { builder with pending := [] }
    match builder.codec.compress builder.layout.rowLength builder.pending with
    | .error fault => (.error fault, emptied)
    | .ok stored =>
        if 65535 < stored.sidecar.length then (.error (.oversize .sidecar), emptied)
        else
          let appended := { emptied with blocks := builder.blocks ++ blockBytes stored }
          if UInt32.size ≤ stored.payload.length then (.error (.oversize .payload), appended)
          else if UInt32.size ≤ builder.pending.length then (.error (.oversize .block), appended)
          else
            (.ok (), { appended with
              pendingRows := 0
              index := builder.entry stored :: builder.index })

/-- A row that has been encoded joins the pending ones. -/
def append (builder : Builder) (row : Bytes) : Builder :=
  { builder with
    pending := builder.pending ++ row
    pendingRows := builder.pendingRows + 1
    rows := builder.rows + 1 }

/-- One more pending row could not be counted. -/
def isCrowded (builder : Builder) : Bool := UInt32.size ≤ builder.pendingRows.toNat + 1

section Rows

variable [Host] [Checksum] [CalendarText]

/-- Write a row, and the block that it completes. A row that cannot be counted joins the pending ones
all the same. -/
def write (builder : Builder) (values : List Value) : Except Fault Unit × Builder :=
  let blank := List.replicate builder.layout.rowLength 0
  match Row.write .native values builder.layout blank with
  | (.error reason, _) => (.error (.inContext (.encoding builder.rows) (.data reason)), builder)
  | (.ok (), row) =>
      if builder.isCrowded then
        (.error (.trap .overflow), { builder with pending := builder.pending ++ row })
      else
        let builder := builder.append row
        if builder.pendingRows = builder.rowsPerBlock then builder.flush else (.ok (), builder)

/-- Write the rows of a cursor from a number on, and count them. -/
def writeRows (cursor : RowCursor) (builder : Builder) (written : Nat) :
    List Nat → Except Fault Nat × Builder
  | [] => (.ok written, builder)
  | row :: rest =>
      match cursor.rowValues row with
      | .error reason => (.error (.data reason), builder)
      | .ok values =>
          match builder.write values with
          | (.error fault, builder) => (.error fault, builder)
          | (.ok (), builder) => writeRows cursor builder (written + 1) rest

/-- Write every row of a cursor. Columns are matched by position. The rows before one that is
refused stay written. -/
def writeCursor (builder : Builder) (cursor : RowCursor) : Except Fault Nat × Builder :=
  if cursor.width ≠ builder.layout.length then
    (.error (.cursorWidth cursor.width builder.layout.length), builder)
  else writeRows cursor builder 0 (List.range cursor.length)

end Rows

/-- The file as it stands before it is finished. -/
def draft (builder : Builder) : Bytes :=
  List.replicate FileHeader.size 0 ++ builder.schema ++ builder.blocks

def header [Host] (builder : Builder) : FileHeader where
  version := FileHeader.currentVersion
  codec := builder.codec.id
  order := .native
  rowLength := UInt32.ofNat builder.layout.rowLength
  rowsPerBlock := builder.rowsPerBlock
  blocks := UInt64.ofNat builder.index.length
  rows := UInt64.ofNat builder.rows
  flags := FileHeader.checksumFlag
  schemaLength := UInt32.ofNat builder.schema.length
  columns := UInt16.ofNat builder.layout.length

/-- The file once no row is pending. -/
def sealed [Host] (builder : Builder) : Bytes :=
  builder.header.toBytes ++ builder.schema ++ builder.blocks ++
    builder.index.reverse.flatMap BlockEntry.toBytes ++ Bytes.ofNat 8 builder.offset

/-- Store the last rows and complete the file. The answer is the number of rows, or why the file
had to stay a draft; the bytes are there either way. -/
def finish [Host] [Checksum] (builder : Builder) : Except Fault Nat × Bytes :=
  match builder.flush with
  | (.error fault, stopped) => (.error fault, stopped.draft)
  | (.ok (), full) => (.ok full.rows, full.sealed)

end Builder

end RowStore.RowFile
