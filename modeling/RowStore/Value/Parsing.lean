import RowStore.Text.Numeral
import RowStore.Value

/-! The text form of values, as it stands in a field of a table. -/

namespace RowStore

namespace Text

def hexValue? (c : Char) : Option Nat :=
  if '0' ≤ c ∧ c ≤ '9' then some (c.toNat - 48)
  else if 'a' ≤ c ∧ c ≤ 'f' then some (c.toNat - 87)
  else if 'A' ≤ c ∧ c ≤ 'F' then some (c.toNat - 55)
  else none

def hexPairs? : List Char → Option Bytes
  | high :: low :: rest => do
      let high ← hexValue? high
      let low ← hexValue? low
      let bytes ← hexPairs? rest
      some (UInt8.ofNat (16 * high + low) :: bytes)
  | _ => some []

def readHex (text : List Char) : Except Error Bytes :=
  if text.length % 2 ≠ 0 then .error (malformed text .oddHexDigits)
  else
    match hexPairs? text with
    | some bytes => .ok bytes
    | none => .error (malformed text .invalidHexDigit)

end Text

namespace ColumnType

/-- Read a field as a value of a type. The text types keep it as it is; for all others the white
space around it does not count. Integers are taken modulo the size of their type. -/
def parse [CalendarText] (type : ColumnType) (text : List Char) : Except Error Value :=
  let trimmed := Text.trim text
  match type with
  | .string => .ok (.string (String.ofList text))
  | .chars => .ok (.chars (Window.ofList text))
  | .boolean => (Text.readBoolean trimmed).map .boolean
  | .integer type =>
      (Text.readInteger trimmed).map fun value => .integer type (type.wrap value.toInt)
  | .single => (Text.readDecimal trimmed).map fun value => .single value.toSingle
  | .double => (Text.readDecimal trimmed).map .double
  | .date =>
      match CalendarText.readDate? trimmed with
      | some value => .ok (.date value)
      | none => .error (.invalidTemporal .date (String.ofList trimmed))
  | .instant =>
      match CalendarText.readInstant? trimmed with
      | some value => .ok (.instant value)
      | none => .error (.invalidTemporal .instant (String.ofList trimmed))
  | .bytes => (Text.readHex trimmed).map .bytes
  | .nothing => .ok .nothing

end ColumnType

end RowStore
