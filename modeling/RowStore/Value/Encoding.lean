import RowStore.Bytes.Order
import RowStore.Text.Utf8
import RowStore.Value

/-! The stored form of values.

Fixed-size types are machine words in a byte order. An instant is its seconds in eight bytes and
its nanoseconds in four. Texts are stored in UTF-8; the type `chars` only admits characters of the
Basic Multilingual Plane.
-/

namespace RowStore

namespace ByteOrder

def writeInteger (order : ByteOrder) (type : IntType) (value : Int) : Bytes :=
  order.write type.width.bytes (type.pattern (type.wrap value))

def readInteger (order : ByteOrder) (type : IntType) (bytes : Bytes) : Except Error type.Elem :=
  (order.readWord type.name type.width.bytes bytes).map type.ofPattern

end ByteOrder

namespace ColumnType

/-- Encode a value for a column of a type. A date column takes the day of an instant, the two text
types take each other's values, and a column of type `nothing` takes any value as empty. -/
def encode (type : ColumnType) (order : ByteOrder) (value : Value) : Except Error Bytes :=
  match type, value with
  | .boolean, .boolean value => .ok [if value then 1 else 0]
  | .integer type, .integer found value =>
      if type = found then .ok (order.writeInteger found value.val)
      else .error (.typeMismatch (.integer type) (.integer found))
  | .single, .single value => .ok (order.write 4 value.bits.toNat)
  | .double, .double value => .ok (order.write 8 value.bits.toNat)
  | .date, .date value => .ok (order.writeInteger .int64 value.day)
  | .date, .instant value => .ok (order.writeInteger .int64 value.date.day)
  | .instant, .instant value =>
      .ok (order.writeInteger .int64 value.seconds ++ order.writeInteger .int32 value.nanos)
  | .string, .string value => .ok (Text.Utf8.ofString value)
  | .string, .chars value => .ok (Text.Utf8.encode value.content)
  | .chars, .chars value => Text.Bmp.encode value.content
  | .chars, .string value => Text.Bmp.encode value.toList
  | .bytes, .bytes value => .ok value
  | .nothing, _ => .ok []
  | type, value => .error (.typeMismatch type value.type)

def dateOfDay (day : Int) : Except Error Date :=
  match Date.ofDay? day with
  | some found => .ok found
  | none => .error (.invalidTemporal .date (toString day))

def instantOfParts (seconds nanos : Int) : Except Error Instant :=
  match Instant.ofParts? seconds nanos with
  | some found => .ok found
  | none => .error (.invalidTemporal .instant s!"{seconds}s+{nanos}ns")

def decodeBoolean (bytes : Bytes) : Except Error Bool :=
  match bytes with
  | [] => .error (.shortBuffer "bool" 1 0)
  | byte :: _ =>
      if byte = 0 then .ok false
      else if byte = 1 then .ok true
      else .error (.invalidBoolean ("0x" ++ Bytes.hex [byte]))

def decodeInstant (order : ByteOrder) (bytes : Bytes) : Except Error Instant :=
  if bytes.length < 12 then .error (.shortBuffer "instant" 12 bytes.length)
  else do
    let seconds ← order.readInteger .int64 (bytes.take 8)
    let nanos ← order.readInteger .int32 ((bytes.drop 8).take 4)
    instantOfParts seconds.val nanos.val

/-- Decode the stored form of a value. Fixed-size types ignore what follows their bytes. -/
def decode (type : ColumnType) (order : ByteOrder) (bytes : Bytes) : Except Error Value :=
  match type with
  | .boolean => (decodeBoolean bytes).map .boolean
  | .integer type => (order.readInteger type bytes).map (.integer type)
  | .single => (order.readWord "u32" 4 bytes).map fun word => .single ⟨UInt32.ofNat word⟩
  | .double => (order.readWord "u64" 8 bytes).map fun word => .double ⟨UInt64.ofNat word⟩
  | .date => do
      let day ← order.readInteger .int64 bytes
      let found ← dateOfDay day.val
      .ok (.date found)
  | .instant => (decodeInstant order bytes).map .instant
  | .string =>
      match Text.Utf8.toString bytes with
      | .ok text => .ok (.string text)
      | .error flaw => .error (.invalidUtf8 flaw.offset)
  | .chars => (Text.Bmp.decode bytes).map fun chars => .chars (Window.ofList chars)
  | .bytes => .ok (.bytes bytes)
  | .nothing => .ok .nothing

end ColumnType

end RowStore
