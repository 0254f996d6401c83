import RowStore.Block.Piecewise
import RowStore.Row.Piecewise
import RowStore.RowFile.Builder

/-! Row files that are written with their pending rows in pieces.

Rows may be wide and a block may have many of them. In pieces, a block takes the room of what its
rows say, and not of the slots that they leave empty.
-/

namespace RowStore.RowFile

structure PiecewiseBuilder where
  codec : PiecewiseCodec
  /-- All but the pending rows. -/
  base : Builder
  pending : Pieces

namespace PiecewiseBuilder

/-- The builder that stands for the same file. -/
def whole (builder : PiecewiseBuilder) : Builder :=
  { builder.base with
    codec := builder.codec.toBlockCodec
    pending := builder.pending.expand }

def create (codec : PiecewiseCodec) (layout : Layout) (rowsPerBlock : UInt32) :
    Except Fault PiecewiseBuilder := do
  let base ← Builder.create codec.toBlockCodec layout rowsPerBlock
  .ok ⟨codec, base, []⟩

def entry [Checksum] (builder : PiecewiseBuilder) (stored : StoredBlock) : BlockEntry :=
  { builder.base.entry stored with rawLength := UInt32.ofNat builder.pending.size }

/-- Store the pending rows as a block, as `Builder.flush`. -/
def flush [Checksum] (builder : PiecewiseBuilder) : Except Fault Unit × PiecewiseBuilder :=
  let base := builder.base
  if base.pendingRows = 0 then (.ok (), builder)
  else
    let emptied := { builder with pending := [] }
    match builder.codec.compressPieces base.layout.rowLength builder.pending with
    | .error fault => (.error fault, emptied)
    | .ok stored =>
        if 65535 < stored.sidecar.length then (.error (.oversize .sidecar), emptied)
        else
          let blocks := base.blocks ++ Builder.blockBytes stored
          let appended := { emptied with base := { base with blocks } }
          if UInt32.size ≤ stored.payload.length then (.error (.oversize .payload), appended)
          else if UInt32.size ≤ builder.pending.size then (.error (.oversize .block), appended)
          else
            let index := builder.entry stored :: base.index
            (.ok (), { emptied with base := { base with blocks, index, pendingRows := 0 } })

def append (builder : PiecewiseBuilder) (row : Pieces) : PiecewiseBuilder :=
  { builder with
    base := { builder.base with
      pendingRows := builder.base.pendingRows + 1
      rows := builder.base.rows + 1 }
    pending := builder.pending ++ row }

section Rows

variable [Host] [Checksum] [CalendarText]

/-- Write a row, and the block that it completes, as `Builder.write`. -/
def write (builder : PiecewiseBuilder) (values : List Value) :
    Except Fault Unit × PiecewiseBuilder :=
  match Row.assemble .native values builder.base.layout with
  | .error reason =>
      (.error (.inContext (.encoding builder.base.rows) (.data reason)), builder)
  | .ok row =>
      if builder.base.isCrowded then
        (.error (.trap .overflow), { builder with pending := builder.pending ++ row })
      else
        let builder := builder.append row
        if builder.base.pendingRows = builder.base.rowsPerBlock then builder.flush
        else (.ok (), builder)

/-- The rows of a cursor are written out. -/
def writeCursor (builder : PiecewiseBuilder) (cursor : RowCursor) :
    Except Fault Nat × PiecewiseBuilder :=
  let (answer, base) := builder.whole.writeCursor cursor
  (answer, ⟨builder.codec, base, [.plain base.pending]⟩)

end Rows

def draft (builder : PiecewiseBuilder) : Bytes := builder.base.draft

def finish [Host] [Checksum] (builder : PiecewiseBuilder) : Except Fault Nat × Bytes :=
  match builder.flush with
  | (.error fault, stopped) => (.error fault, stopped.draft)
  | (.ok (), full) => (.ok full.base.rows, full.whole.sealed)

end PiecewiseBuilder

end RowStore.RowFile
