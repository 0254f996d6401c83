import RowStore.Calendar.Instant
import RowStore.Decimal.Shortest
import RowStore.Window

/-! One cell of a table: a value of any column type, with its text. -/

namespace RowStore

inductive Value where
  | boolean (value : Bool)
  | integer (type : IntType) (value : type.Elem)
  | single (value : Single)
  | double (value : Double)
  | date (value : Date)
  | instant (value : Instant)
  | string (value : String)
  | chars (value : CharWindow)
  | bytes (value : Bytes)
  | nothing
deriving Repr, DecidableEq

namespace Value

/-- The type that describes the value as it is. -/
def type : Value → ColumnType
  | boolean _ => .boolean
  | integer type _ => .integer type
  | single _ => .single
  | double _ => .double
  | date _ => .date
  | instant _ => .instant
  | string _ => .string
  | chars _ => .chars
  | bytes _ => .bytes
  | nothing => .nothing

/-- The number a boolean or an integer is. -/
def toInt? : Value → Option Int
  | boolean value => some (if value then 1 else 0)
  | integer _ value => some value.val
  | _ => none

/-- The double nearest to a numeric value. -/
def toDouble? : Value → Option Double
  | single value => some value.toDouble
  | double value => some value
  | value => value.toInt?.map Double.ofInt

def text [CalendarText] : Value → String
  | boolean value => if value then "true" else "false"
  | integer _ value => toString value.val
  | single value => value.text
  | double value => value.text
  | date value => CalendarText.ofDate value
  | instant value => CalendarText.ofInstant value
  | string value => value
  | chars value => value.text
  | bytes value => value.hex
  | nothing => ""

/-- Equality of values of one type. Floating point values are compared as numbers and windows by
their state and content. -/
def same : Value → Value → Bool
  | boolean left, boolean right => left = right
  | integer leftType left, integer rightType right => leftType = rightType && left.val = right.val
  | single left, single right => left.same right
  | double left, double right => left.same right
  | date left, date right => left = right
  | instant left, instant right => left = right
  | string left, string right => left = right
  | chars left, chars right => left.same right
  | bytes left, bytes right => left = right
  | nothing, nothing => true
  | _, _ => false

end Value

end RowStore
