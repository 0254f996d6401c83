import RowStore.Value.Encoding
import RowStore.Value.Parsing

/-! Values of one type as values of another.

Every value has a text; texts are parsed by the grammar of the target. Numbers keep their value or
are refused, except that singles and doubles round.
-/

namespace RowStore

namespace Value

def mismatch (target : ColumnType) (value : Value) : Error := .typeMismatch target value.type

/-- The integer that a value stands for: its number, its day or its second. Floating point values
count only if they are integers of moderate size. -/
def wideInt? (value : Value) : Option Int :=
  match value with
  | date value => some value.day
  | instant value => some value.seconds
  | single value => value.toDouble.toInt?.filter (·.natAbs < 18000000000000000000)
  | double value => value.toInt?.filter (·.natAbs < 18000000000000000000)
  | value => value.toInt?

def toBoolean [CalendarText] (value : Value) : Except Error Bool :=
  match value.toDouble? with
  | some number =>
      if number.toInt? = some 0 then .ok false
      else if number.toInt? = some 1 then .ok true
      else .error (.invalidBoolean value.text)
  | none => .error (.invalidBoolean value.text)

def toInteger [CalendarText] (type : IntType) (value : Value) : Except Error type.Elem :=
  match value.wideInt? with
  | some number =>
      match type.ofInt? number with
      | some element => .ok element
      | none => .error (.malformedNumber value.text .outOfRange)
  | none => .error (mismatch (.integer type) value)

/-- A double must be within a millionth of its single. -/
def narrowDouble (value : Double) : Except Error Single :=
  let narrow := value.toSingle
  if (narrow.toDouble.toFloat - value.toFloat).abs > 0.000001 then
    .error (.malformedNumber value.text .precisionLost)
  else .ok narrow

def toSingle (value : Value) : Except Error Single :=
  match value with
  | double value => narrowDouble value
  | value =>
      match value.toDouble? with
      | some number => .ok number.toSingle
      | none => .error (mismatch .single value)

def toDouble (value : Value) : Except Error Double :=
  match value.toDouble? with
  | some number => .ok number
  | none => .error (mismatch .double value)

/-- The number of a value that counts days or seconds. -/
def toCount (target : ColumnType) (value : Value) : Except Error Int :=
  match value.toInt? with
  | some number =>
      if IntType.int64.Holds number then .ok number else .error (mismatch target value)
  | none => .error (mismatch target value)

def toDate (value : Value) : Except Error Date :=
  match value with
  | instant value => .ok value.date
  | value => do
      let day ← value.toCount .date
      ColumnType.dateOfDay day

def toInstant (value : Value) : Except Error Instant :=
  match value with
  | date value => ColumnType.instantOfParts (value.day * 86400) 0
  | value => do
      let seconds ← value.toCount .instant
      ColumnType.instantOfParts seconds 0

/-- Convert a value that is neither a text nor already of the type. -/
def convertPlain [Host] [CalendarText] (value : Value) (target : ColumnType) : Except Error Value :=
  match target with
  | .string => .ok (.string value.text)
  | .chars => .ok (.chars (Window.ofList value.text.toList))
  | .nothing => .ok .nothing
  | .bytes => (value.type.encode .native value).map .bytes
  | .boolean => value.toBoolean.map .boolean
  | .integer type => (value.toInteger type).map (.integer type)
  | .single => value.toSingle.map .single
  | .double => value.toDouble.map .double
  | .date => value.toDate.map .date
  | .instant => value.toInstant.map .instant

def convert [Host] [CalendarText] (value : Value) (target : ColumnType) : Except Error Value :=
  if value.type = target then .ok value
  else
    match target, value with
    | .string, value | .chars, value | .nothing, value => value.convertPlain target
    | target, .string text => target.parse text.toList
    | target, .chars window => target.parse window.content
    | target, value => value.convertPlain target

end Value

end RowStore
