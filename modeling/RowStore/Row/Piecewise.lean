import RowStore.Bytes.Pieces
import RowStore.Row.Buffer

/-! Rows that are put together from pieces, so that the slots left empty take no room. -/

namespace RowStore.Row

/-- Lay pieces over a row that must hold them. -/
def putPieces (row : Pieces) (offset : Nat) (data : Pieces) : Except Error Pieces :=
  if offset + data.size ≤ row.size then .ok (row.overwrite offset data)
  else .error (.trap .outOfBounds)

variable [Host] [CalendarText]

/-- Put one value into its slot, as `writeCell` writes it into a buffer. -/
def putCell (order : ByteOrder) (value : Value) (column : Column) (row : Pieces) :
    Except Error Pieces :=
  match column.span? with
  | none => .error (.unpositioned column.name)
  | some span =>
      if value = .nothing then
        if span.stop < span.start then .error (.trap .outOfBounds)
        else putPieces row span.start [.run span.length 0]
      else do
        let encoded ← encodeCell order value column
        if span.length < encoded.length then
          .error (.slotOverflow column.name encoded.length span.length)
        else putPieces row span.start [.plain (terminated column.type encoded span.length)]

def putCells (order : ByteOrder) (row : Pieces) : List (Value × Column) → Except Error Pieces
  | [] => .ok row
  | (value, column) :: rest => do
      let row ← putCell order value column row
      putCells order row rest

/-- A row of exactly the length of its layout. -/
def assemble (order : ByteOrder) (values : List Value) (layout : Layout) : Except Error Pieces :=
  if values.length ≠ layout.length then
    .error (.columnCountMismatch 0 (-1) layout.length values.length)
  else putCells order [.run layout.rowLength 0] (values.zip layout)

end RowStore.Row
