import RowStore.Block.Catalog
import RowStore.Command.Listing
import RowStore.Command.Session
import RowStore.Csv.Export
import RowStore.Csv.Layout
import RowStore.Environment
import RowStore.Gzip.Member
import RowStore.RowFile.Builder
import RowStore.RowFile.Reading

/-! Commands that turn tables into row files and back. -/

namespace RowStore.Command

/-- Does the name of a file end in the extension `gz`? A name needs more than its extension. -/
def isGzip (path : String) : Bool :=
  match Path.fileName? path with
  | some name => name.endsWith ".gz" && name ≠ ".gz"
  | none => false

/-- The bytes of a table: a file, expanded if its name says so, or the input for a hyphen. -/
def readTable (path : String) : Action Bytes := do
  if path = "-" then pure (← get).input
  else do
    let node ← Action.within (.openingInput path) (Action.openNode path)
    if isGzip path then
      Action.within (.unzipping path) (Action.io (node.content >>= Gzip.expand))
    else Action.io node.content

/-- Open a row file with the codec that its header names. -/
def openFile (path : String) : Action RowFile := do
  let node ← Action.within (.opening path) (Action.openNode path)
  let bytes ← Action.within .header (Action.io node.content)
  let header ← Action.lift (RowFile.peek bytes)
  let codec ← Action.lift (BlockCodec.ofId header.codec.toNat)
  Action.lift (RowFile.ofBytes codec bytes)

structure ImportOptions where
  input : String
  output : String
  codec : String
  level : Int
  rowsPerBlock : UInt32
  /-- Forced types, each as a name, a colon and a type. -/
  columns : List String
deriving Repr, DecidableEq

def defaultRowsPerBlock : UInt32 := 4096

/-- Start a row file. -/
def createRowFile (path : String) (codec : BlockCodec) (layout : Layout) (rowsPerBlock : UInt32) :
    Action (RowFile.Builder × Place) := do
  let builder ← Action.lift (RowFile.Builder.create codec layout rowsPerBlock)
  let place ← Action.within (.creating path) (Action.createFile path)
  pure (builder, place)

/-- Write all rows and finish the file. If that fails, what is there is left as a draft. -/
def writeRowFile (place : Place) (builder : RowFile.Builder) (rows : RowCursor) : Action Nat := do
  match builder.writeCursor rows with
  | (.error fault, stopped) => do
      Action.writeFile place stopped.draft
      Action.fail fault
  | (.ok _, builder) => do
      let (outcome, bytes) := builder.finish
      Action.writeFile place bytes
      Action.lift outcome

/-- Import a table into a row file. -/
def importTable (options : ImportOptions) : Action Unit := do
  let codec ← Action.lift (BlockCodec.ofName options.codec options.level)
  let overrides ← Action.lift (Csv.Overrides.read options.columns)
  let bytes ← readTable options.input
  let (_, layout) ← Action.lift (Csv.layout bytes overrides)
  let typed ← Action.data (Csv.readTyped bytes (some layout) none).1
  let (builder, place) ← Action.within (.creatingOutput options.output)
    (createRowFile options.output codec layout options.rowsPerBlock)
  let rows ← writeRowFile place builder typed
  let fileSize := (((← get).storage.bytes? options.output).getD []).length
  let ratio := (Double.ofInt bytes.length).div (.ofInt (max fileSize 1))
  Action.report [
    "  codec       : " ++ codec.name,
    s!"  rows        : {rows}",
    s!"  columns     : {typed.width}",
    s!"  row width   : {layout.rowLength} B",
    "  csv size    : " ++ Measure.size bytes.length,
    "  row file    : " ++ Measure.size fileSize,
    "  ratio       : " ++ Measure.ratio ratio]

/-- Print the layout that a table would get. -/
def printSchema (input : String) (json : Bool) : Action Unit := do
  let bytes ← readTable input
  let (cursor, layout) ← Action.lift (Csv.layout bytes [])
  if json then Action.print (Listing.json layout)
  else do
    Action.print [s!"=== {cursor.length} rows, {layout.rowLength} B per row ===", ""]
    Action.print (Listing.table layout)

/-- Names with commas between them. Blanks around a name do not matter. -/
def readNames (list : String) : List String := (list.splitOn ",").map Text.trimString

/-- Write the rows of a row file as a table: to a file, or to the output for a hyphen. -/
def exportTable (input output : String) (columns : Option String) : Action Unit := do
  let file ← openFile input
  let cursor ← Action.lift file.load
  let cursor ← match columns with
    | some list => Action.data (cursor.selectNames (readNames list))
    | none => pure cursor
  let (outcome, lines) := Csv.lines cursor
  if output = "-" then Action.print lines
  else do
    let place ← Action.within (.creatingOutput output) (Action.createFile output)
    Action.writeFile place (Text.Utf8.ofString (Csv.joined lines))
  Action.data outcome

end RowStore.Command
