import RowStore.Block.Codec
import RowStore.Cursor.Records
import RowStore.RowFile.Entry
import RowStore.RowFile.Header
import RowStore.RowFile.Schema

/-! Row files being read.

Opening a file reads its header, its schema and its block index, which the last eight bytes point
to. A row is found by one division and one look at the index; only its own block is restored.
Nothing that the file says is trusted: every length is met by a refusal when the bytes run out. The
steps of arithmetic on what the file says are checked, and trap, and so do sizes that memory has no
room for.
-/

namespace RowStore

/-- A memory, in which `limit` bytes or more cannot be reserved. -/
structure Memory where
  limit : Nat
  /-- There is room for what a field of 32 bits counts: schemas, payloads and blocks. -/
  words : UInt32.size ≤ limit
  /-- Sizes are signed. -/
  signed : limit ≤ 1 <<< 63

namespace Memory

/-- The greatest memory that there can be. -/
def greatest : Memory := ⟨1 <<< 63, by decide, Nat.le_refl _⟩

def reserve (memory : Memory) (size : Nat) : Except Fault Unit :=
  if size < memory.limit then .ok () else .error (.trap .allocation)

end Memory

structure RowFile where
  bytes : Bytes
  header : FileHeader
  layout : Layout
  index : List BlockEntry
  codec : BlockCodec

namespace RowFile

/-- Read `count` bytes from an offset, which is where they must be. -/
def readAt (bytes : Bytes) (offset count : Nat) : Except Fault Bytes :=
  match bytes.slice? offset (offset + count) with
  | some found => .ok found
  | none => if count = 0 then .ok [] else .error (.io .unexpectedEnd)

/-- Offsets in files are signed. -/
def seek (offset : Nat) : Except Fault Nat :=
  if offset < 1 <<< 63 then .ok offset else .error (.io .invalidInput)

/-- The header alone, for instance to choose the codec. -/
def peek (bytes : Bytes) : Except Fault FileHeader := do
  let header ← Outcome.inContext .header (readAt bytes 0 FileHeader.size)
  FileHeader.ofBytes header

def readIndex (bytes : Bytes) : (offset count : Nat) → Except Fault (List BlockEntry)
  | _, 0 => .ok []
  | offset, count + 1 => do
      let entry ← Outcome.inContext .blockIndex (readAt bytes offset BlockEntry.size)
      let index ← readIndex bytes (offset + BlockEntry.size) count
      .ok (BlockEntry.ofBytes entry :: index)

/-- Open a file whose blocks were stored by a codec. Room for the index is reserved before it is read. -/
def openIn (memory : Memory) (codec : BlockCodec) (bytes : Bytes) : Except Fault RowFile := do
  let header ← peek bytes
  if header.version ≠ FileHeader.currentVersion then
    throw (.unsupportedVersion header.version.toNat)
  if header.codec ≠ codec.id then
    throw (.codecMismatch header.codec.toNat codec.id.toNat)
  let schema ← Outcome.inContext .schema
    (readAt bytes FileHeader.size header.schemaLength.toNat)
  let layout ← Schema.decode header.columns.toNat schema
  let footer ← readAt bytes (bytes.length - 8) 8
  let offset ← seek (Bytes.toNat footer)
  memory.reserve (header.blocks.toNat * BlockEntry.size)
  let index ← readIndex bytes offset header.blocks.toNat
  .ok ⟨bytes, header, layout, index, codec⟩

/-- Open a file where memory is no concern. -/
def ofBytes (codec : BlockCodec) (bytes : Bytes) : Except Fault RowFile :=
  openIn .greatest codec bytes

def rawSize (file : RowFile) : Nat :=
  file.index.foldr (fun entry total => entry.rawLength.toNat + total) 0

/-- Bytes of all payloads. -/
def storedSize (file : RowFile) : Nat :=
  file.index.foldr (fun entry total => entry.storedLength.toNat + total) 0

/-- How many times smaller the blocks are than their rows. -/
def ratio (file : RowFile) : Double :=
  if file.storedSize = 0 then .ofInt 1
  else (Double.ofInt file.rawSize).div (.ofInt file.storedSize)

def checkPayload [Checksum] (file : RowFile) (block : Nat) (entry : BlockEntry) (payload : Bytes) :
    Except Fault Unit :=
  let found := Checksum.ofPayload payload
  if file.header.hasChecksums ∧ found ≠ entry.checksum then
    .error (.checksumMismatch block entry.checksum.toNat found.toNat)
  else .ok ()

/-- What is stored of a block. -/
def storedBlock (file : RowFile) (entry : BlockEntry) : Except Fault StoredBlock := do
  let offset ← seek entry.offset.toNat
  let length ← readAt file.bytes offset 2
  let sidecar ← readAt file.bytes (offset + 2) (Bytes.toNat length)
  let payload ← readAt file.bytes (offset + 2 + sidecar.length) entry.storedLength.toNat
  .ok ⟨sidecar, payload⟩

/-- The rows of a block, one behind the other. -/
def readBlock [Checksum] (file : RowFile) (block : Nat) : Except Fault Bytes :=
  match file.index[block]? with
  | none => .error (.blockOutOfRange block file.header.blocks.toNat)
  | some entry => do
      let stored ← file.storedBlock entry
      file.checkPayload block entry stored.payload
      let raw ← Outcome.inContext (.expanding block)
        (file.codec.expand file.header.rowLength.toNat entry.rawLength.toNat stored)
      if raw.length = entry.rawLength.toNat then .ok raw
      else .error (.blockLength block raw.length entry.rawLength.toNat)

/-- The block of a row. -/
def blockOf (file : RowFile) (row : Nat) : Except Fault Nat :=
  if file.header.rowsPerBlock = 0 then .error (.trap .divisionByZero)
  else .ok (row / file.header.rowsPerBlock.toNat)

/-- Where a row starts in its block, of which the first row is given, and where it ends. -/
def rowSpan (file : RowFile) (row firstRow : Nat) : Except Fault Span :=
  let length := file.header.rowLength.toNat
  let start := (row - firstRow) * length
  if row < firstRow ∨ UInt64.size ≤ start + length then .error (.trap .overflow)
  else .ok ⟨start, start + length⟩

def readRow [Checksum] (file : RowFile) (row : Nat) : Except Fault (List Value) :=
  if file.header.rows.toNat ≤ row then .error (.rowOutOfRange row file.header.rows.toNat)
  else do
    let block ← file.blockOf row
    match file.index[block]? with
    | none => .error (.noBlock row)
    | some entry => do
        let raw ← file.readBlock block
        let span ← file.rowSpan row entry.firstRow.toNat
        match raw.slice? span.start span.stop with
        | none => .error (.blockTooShort block row)
        | some bytes =>
            Outcome.inContext (.decoding row)
              (Outcome.ofData (Row.read file.header.order bytes file.layout))

/-- All rows, as records in memory. -/
def toCursor [Checksum] (file : RowFile) : Except Fault RowCursor := do
  let blocks ← (List.range file.header.blocks.toNat).mapM file.readBlock
  Outcome.ofData
    (RowCursor.ofRecords blocks.flatten file.header.rowLength.toNat file.header.rows.toNat
      file.layout file.header.order)

/-- Room for the rows of all blocks. Their sizes are added up first. -/
def reserveRows (file : RowFile) (memory : Memory) : Except Fault Unit :=
  if UInt64.size ≤ file.rawSize then .error (.trap .overflow) else memory.reserve file.rawSize

/-- Read all rows into room that is reserved before. -/
def loadIn [Checksum] (file : RowFile) (memory : Memory) : Except Fault RowCursor := do
  file.reserveRows memory
  file.toCursor

/-- Read all rows where memory is no concern. -/
def load [Checksum] (file : RowFile) : Except Fault RowCursor := file.loadIn .greatest

end RowFile

end RowStore
