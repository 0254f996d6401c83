import RowStore.Cursor
import RowStore.Row.Buffer

/-! Cursors over fixed-size records in a byte string. -/

namespace RowStore

/-- The greatest size that can be asked for. -/
def sizeLimit : Nat := UInt64.size - 1

namespace RowSource

/-- Cells are decoded when they are asked for; an error names the bytes of the cell. -/
def ofRecords (bytes : Bytes) (rowLength rows : Nat) (layout : Layout) (order : ByteOrder) :
    RowSource where
  columns := layout
  length := rows
  cell row column :=
    let start := row * rowLength
    match bytes.slice? start (start + rowLength), layout[column]? with
    | some record, some found =>
        (Row.readCell order record found).mapError
          (.inCell row column found.name (start + found.start.toInt) (start + found.stop.toInt))
    | _, _ => .error (.trap .outOfBounds)
  cellColumn _ column := layout[column]?

end RowSource

namespace RowCursor

/-- A column must have a place inside the row. -/
def checkPlace (rowLength : Nat) (column : Column) : Except Error Unit := do
  column.validate
  match column.span? with
  | none => .error (.unpositioned column.name)
  | some span =>
      if rowLength < span.stop then
        .error (.invalidDescriptor column.name (.pastRow span.start span.stop rowLength))
      else .ok ()

/-- Exactly `rows` records of `rowLength` bytes each. -/
def ofRecords (bytes : Bytes) (rowLength rows : Nat) (layout : Layout) (order : ByteOrder) :
    Except Error RowCursor := do
  layout.forM (checkPlace rowLength)
  let expected := min (rows * rowLength) sizeLimit
  if expected ≠ bytes.length then .error (.shortBuffer "row" expected bytes.length)
  else .ok (ofSource (.ofRecords bytes rowLength rows layout order))

/-- As many records as the bytes hold. -/
def ofBytes (bytes : Bytes) (rowLength : Nat) (layout : Layout) (order : ByteOrder) :
    Except Error RowCursor :=
  let rows := bytes.length / rowLength
  if rows * rowLength ≠ bytes.length then
    .error (.shortBuffer "row" ((rows + 1) * rowLength) bytes.length)
  else ofRecords bytes rowLength rows layout order

end RowCursor

end RowStore
