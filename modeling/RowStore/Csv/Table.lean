import RowStore.Csv.Line
import RowStore.Cursor
import RowStore.Value.Parsing

/-! Whole tables of comma-separated fields.

The first line names the columns, and every further line must have as many fields as there are
names. Cells are byte ranges; their text is decoded when they are asked for. With evidence, each
column gets the place that its deduced type would take in a row.
-/

namespace RowStore.Csv

def slice (bytes : Bytes) (span : Span) : Bytes := (bytes.drop span.start).take span.length

/-- A column name is the text of its field, trimmed, without one pair of double quotes. -/
def columnName (field : Bytes) : Except Error String := do
  let chars ← Text.Bmp.decode field
  let unquoted := (CharWindow.unquote (Window.ofList chars)).2
  .ok (CharWindow.text unquoted.trim)

def columnNames (bytes : Bytes) (fields : List Span) : Except Error (List String) :=
  fields.mapM fun span => columnName (slice bytes span)

structure Table where
  bytes : Bytes
  names : List String
  lines : List (List Span)
  deduced : Option Layout
deriving Repr, DecidableEq

/-- White space that may follow the last line. -/
def isEndBlank (byte : UInt8) : Bool :=
  byte = 0x20 || byte = 0x09 || byte = 0x0A || byte = 0x0C || byte = 0x0D

/-- The end of the bytes without the blank bytes behind an offset. -/
def contentEnd (offset : Nat) (rest : Bytes) : Nat :=
  offset + (rest.reverse.dropWhile isEndBlank).length

/-- Add the evidence of a line. -/
def addEvidence (file line : Option (List Evidence)) : Except Error (Option (List Evidence)) :=
  match file, line with
  | some file, some line => ((Evidence.mergeAll file line).mapM Evidence.counted).map some
  | file, _ => .ok file

/-- Scan lines of `width` fields from an offset until no content is left. The evidence is returned
also when a line is refused; it is that of the lines before. -/
def scanLines (width stop offset : Nat) (rest : Bytes) (lines : List (List Span))
    (evidence : Option (List Evidence)) : Except Error (List (List Span)) × Option (List Evidence) :=
  if offset < stop then
    match _read : Line.first? offset rest (evidence.map fun _ => []) with
    | none => (.error (.noFields offset), evidence)
    | some found =>
        if found.line.fields.length ≠ width then
          (.error (.columnCountMismatch lines.length offset width found.line.fields.length), evidence)
        else
          match addEvidence evidence found.evidence with
          | .error reason => (.error reason, evidence)
          | .ok evidence =>
              scanLines width stop found.line.stop found.rest (found.line.fields :: lines) evidence
  else (.ok lines.reverse, evidence)
termination_by rest.length
decreasing_by exact Line.length_rest_of_first? _read

/-- The layout of the types deduced, each as wide as the deduction says. -/
def deducedLayout (names : List String) (evidence : List Evidence) : Except Error Layout :=
  Layout.place ((names.zip evidence).map fun (name, found) =>
    (name, found.deduce.type, found.deduce.width))

namespace Table

/-- The header line: the names and the bytes after it. -/
def header (bytes : Bytes) : Except Error (List String × ReadLine) := do
  let found ← Line.parse bytes 0 (-1) none
  let names ← columnNames bytes found.line.fields
  .ok (names, found)

/-- One piece of evidence per name. -/
def fitEvidence (names : List String) (evidence : List Evidence) : List Evidence :=
  (Evidence.padded names.length evidence).take names.length

/-- Scan a table, and collect evidence if a list is given. The evidence is also returned when the
scan fails. -/
def scan (bytes : Bytes) (evidence : Option (List Evidence)) :
    Except Error Table × Option (List Evidence) :=
  match header bytes with
  | .error reason => (.error reason, evidence)
  | .ok (names, found) =>
      let stop := contentEnd found.line.stop found.rest
      match scanLines names.length stop found.line.stop found.rest [] evidence with
      | (.error reason, evidence) => (.error reason, evidence)
      | (.ok lines, none) => (.ok ⟨bytes, names, lines, none⟩, none)
      | (.ok lines, some evidence) =>
          let fitted := fitEvidence names evidence
          match deducedLayout names fitted with
          | .error reason => (.error reason, some fitted)
          | .ok layout => (.ok ⟨bytes, names, lines, some layout⟩, some fitted)

def field? (table : Table) (row column : Nat) : Option Span :=
  table.lines[row]?.bind (·[column]?)

/-- An error in a cell, with the name of its column and the bytes of its field. -/
def inCell (table : Table) (row column : Nat) (span : Span) : Error → Error :=
  .inCell row column (table.names[column]?.getD "") span.start span.stop

/-- The text of a cell. -/
def chars (table : Table) (row column : Nat) : Except Error (List Char) :=
  match table.field? row column with
  | some span =>
      (Text.Bmp.decode (slice table.bytes span)).mapError (table.inCell row column span)
  | none => .error (.trap .outOfBounds)

/-- A cell read as a value of a type. -/
def parsed [CalendarText] (table : Table) (type : ColumnType) (row column : Nat) :
    Except Error Value := do
  let chars ← table.chars row column
  match table.field? row column with
  | some span => (type.parse chars).mapError (table.inCell row column span)
  | none => .error (.trap .outOfBounds)

/-- The columns as they are: texts, with the deduced column as the next stage. -/
def textColumns (table : Table) : List Column :=
  table.names.zipIdx.map fun (name, index) =>
    let column := Column.text name .chars
    match table.deduced.bind fun deduced => deduced[index]? with
    | some next => column.withStages next
    | none => column

/-- A text column at the place of a field in its line. -/
def placedField (table : Table) (row column : Nat) : Option Column := do
  let fields ← table.lines[row]?
  let field ← fields[column]?
  let found ← table.textColumns[column]?
  let start := (fields.head?.map Span.start).getD 0
  some { found with
    start := Int32.ofInt ((field.start : Int) - start)
    stop := Int32.ofInt ((field.stop : Int) - start) }

/-- The table as rows of text cells. -/
def textSource (table : Table) : RowSource where
  columns := table.textColumns
  length := table.lines.length
  cell row column := (table.chars row column).map fun chars => .chars (Window.ofList chars)
  cellColumn row column := table.placedField row column

/-- The table as rows of cells parsed by the types of some columns. -/
def typedSource [CalendarText] (table : Table) (targets : List Column) : RowSource where
  columns := targets
  length := table.lines.length
  cell row column :=
    match targets[column]? with
    | some target => table.parsed target.type row column
    | none => .error (.trap .outOfBounds)
  cellColumn _ column := targets[column]?

end Table

/-- A cursor over the text cells of a table. -/
def readText (bytes : Bytes) (evidence : Option (List Evidence)) :
    Except Error RowCursor × Option (List Evidence) :=
  let (table, evidence) := Table.scan bytes evidence
  (table.map fun table => .ofSource table.textSource, evidence)

/-- The columns by which a table is parsed: those given, or those deduced. -/
def targets (table : Table) : Option (List Column) → Except Error (List Column)
  | some columns =>
      if columns.length = table.names.length then .ok columns
      else .error (.columnCountMismatch 0 0 table.names.length columns.length)
  | none => .ok (table.deduced.getD [])

/-- A cursor over the cells of a table, parsed by the types of the given columns. Without columns
the types are deduced, if need be from evidence that is not kept. -/
def readTyped [CalendarText] (bytes : Bytes) (columns : Option (List Column))
    (evidence : Option (List Evidence)) : Except Error RowCursor × Option (List Evidence) :=
  let scratch := if columns.isNone then evidence.getD [] |> some else evidence
  let (table, collected) := Table.scan bytes scratch
  let cursor := do
    let table ← table
    let columns ← targets table columns
    .ok (.ofSource (table.typedSource columns))
  (cursor, if evidence.isSome then collected else none)

/-- Pieces of a text between commas, with no quoting. -/
def pieces (line : String) : List String := (line.splitOn ",")

/-- A cursor over lines that are there as texts. The first one names the columns, and fields are
divided at every comma. -/
def readLines : List String → Except Error RowCursor
  | [] => RowCursor.ofRows [] []
  | header :: body =>
      RowCursor.ofRows
        ((pieces header).map fun name => Column.text (Text.trimString name) .string)
        (body.map fun line => (pieces line).map Value.string)

end RowStore.Csv
