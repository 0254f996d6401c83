import RowStore.Command.Tables

/-! Commands that look into row files. -/

namespace RowStore.Command

/-- The facts of a file that do not depend on its columns. -/
def summary (path : String) (file : RowFile) : List String := [
  s!"=== RPAK1 File: {Text.quoted path} ===",
  "",
  s!"  format version : {file.header.version.toNat}",
  s!"  codec          : {file.codec.name} (id={file.header.codec.toNat})",
  "  byte order     : " ++ file.header.order.label,
  s!"  rows           : {file.header.rows.toNat}",
  s!"  row width      : {file.header.rowLength.toNat} B",
  s!"  rows per block : {file.header.rowsPerBlock.toNat}",
  s!"  block count    : {file.header.blocks.toNat}",
  "  raw size       : " ++ Measure.size file.rawSize,
  "  compressed     : " ++ Measure.size file.storedSize,
  "  file on disk   : " ++ Measure.size file.bytes.length,
  "  ratio          : " ++ Measure.ratio file.ratio,
  "  flags          : 0x" ++ Fault.paddedHex file.header.flags.toNat]

def blockRow (entry : BlockEntry) (block : Nat) : String :=
  "  " ++ Measure.right 8 (toString block) ++
    "  " ++ Measure.right 14 (toString entry.offset.toNat) ++
    "  " ++ Measure.right 10 (toString entry.firstRow.toNat) ++
    "  " ++ Measure.right 12 (Measure.size entry.storedLength.toNat) ++
    "  " ++ Measure.right 12 (Measure.size entry.rawLength.toNat) ++
    "  " ++ Fault.paddedHex entry.checksum.toNat

def blockTable (index : List BlockEntry) : List String :=
  ("  " ++ Measure.right 8 "block" ++ "  " ++ Measure.right 14 "file offset" ++
    "  " ++ Measure.right 10 "first row" ++ "  " ++ Measure.right 12 "compressed" ++
    "  " ++ Measure.right 12 "raw" ++ "  " ++ Measure.right 16 "checksum") ::
  ("  " ++ Measure.rule 78) :: index.zipIdx.map fun (entry, block) => blockRow entry block

/-- Print what a row file says about itself. -/
def inspect (path : String) (blocks : Bool) : Action Unit := do
  let file ← openFile path
  Action.print (summary path file ++ "" :: Listing.table file.layout)
  if blocks then Action.print ("" :: blockTable file.index)

def cellRow (column : Column) (value : Value) : String :=
  "  " ++ Measure.left 24 column.name ++ " " ++ column.type.name ++ "  " ++ value.text

/-- Print one row. -/
def readRow (path : String) (row : Nat) : Action Unit := do
  let file ← openFile path
  let block := row / max file.header.rowsPerBlock.toNat 1
  Action.report [s!"seeking to row {row} (block {block})..."]
  let values ← Action.lift (file.readRow row)
  Action.print (s!"--- row {row} ---" ::
    (file.layout.zip values).map fun (column, value) => cellRow column value)

end RowStore.Command
