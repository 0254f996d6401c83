import RowStore.Column
import RowStore.Value.Conversion

/-! Rows of a fixed layout in a byte buffer.

A value is converted to the type of its column and written at the start of its slot. Variable-size
values that do not fill their slot are followed by one zero byte, at which reading stops. Nothing
is ever cut off.
-/

namespace RowStore.Row

/-- Encode a value for a column, converting it first if it is of another type. -/
def encodeCell [Host] [CalendarText] (order : ByteOrder) (value : Value) (column : Column) :
    Except Error Bytes := do
  let converted ← value.convert column.type
  column.type.encode order converted

/-- The bytes to write for an encoded value: a terminator follows it if there is room for one and
the type needs it. -/
def terminated (type : ColumnType) (encoded : Bytes) (room : Nat) : Bytes :=
  if type.size? = none ∧ encoded.length < room then encoded ++ [0] else encoded

/-- Write bytes into a buffer that must hold them. -/
def put (buffer : Bytes) (offset : Nat) (data : Bytes) : Except Error Bytes :=
  if offset + data.length ≤ buffer.length then .ok (buffer.overwrite offset data)
  else .error (.trap .outOfBounds)

/-- Write one value into its slot. `nothing` fills the slot with zeros. -/
def writeCell [Host] [CalendarText] (order : ByteOrder) (value : Value) (column : Column)
    (buffer : Bytes) : Except Error Bytes :=
  match column.span? with
  | none => .error (.unpositioned column.name)
  | some span =>
      if value = .nothing then
        if span.stop < span.start then .error (.trap .outOfBounds)
        else put buffer span.start (List.replicate span.length 0)
      else do
        let encoded ← encodeCell order value column
        if span.length < encoded.length then
          .error (.slotOverflow column.name encoded.length span.length)
        else put buffer span.start (terminated column.type encoded span.length)

/-- Write cells in order. The first refused one stops the writing; what was written stays. -/
def writeCells [Host] [CalendarText] (order : ByteOrder) (buffer : Bytes) :
    List (Value × Column) → Except Error Unit × Bytes
  | [] => (.ok (), buffer)
  | (value, column) :: rest =>
      match writeCell order value column buffer with
      | .error reason => (.error reason, buffer)
      | .ok written => writeCells order written rest

/-- Write a row into a buffer, and say whether that succeeded. -/
def write [Host] [CalendarText] (order : ByteOrder) (values : List Value) (layout : Layout)
    (buffer : Bytes) : Except Error Unit × Bytes :=
  if values.length ≠ layout.length then
    (.error (.columnCountMismatch 0 (-1) layout.length values.length), buffer)
  else if buffer.length < layout.rowLength then
    (.error (.shortBuffer "row" layout.rowLength buffer.length), buffer)
  else writeCells order buffer (values.zip layout)

/-- The bytes of a slot that make its value: all of them, or those before the first zero. -/
def significant (type : ColumnType) (slot : Bytes) : Bytes :=
  match type.size? with
  | some _ => slot
  | none => slot.takeWhile (· ≠ 0)

def readCell (order : ByteOrder) (buffer : Bytes) (column : Column) : Except Error Value :=
  match column.span? with
  | none => .error (.unpositioned column.name)
  | some span =>
      match buffer.slice? span.start span.stop with
      | none => .error (.shortBuffer "row" span.stop buffer.length)
      | some slot => column.type.decode order (significant column.type slot)

def read (order : ByteOrder) (buffer : Bytes) (layout : Layout) : Except Error (List Value) :=
  layout.mapM (readCell order buffer)

end RowStore.Row
