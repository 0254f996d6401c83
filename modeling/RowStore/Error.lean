import RowStore.ColumnType
import RowStore.Text.Quoted

/-! What can go wrong with values, windows, lines and rows.

Every cause carries the data that its message shows. A `trap` is different: a step of checked
machine arithmetic or indexing that has no result. It has no message and is never reported as the
cause of another error.
-/

namespace RowStore

inductive Trap where
  | overflow
  | divisionByZero
  | outOfBounds
  | allocation
deriving Repr, DecidableEq

inductive NumberFlaw where
  | noDigits
  | unexpectedCharacter
  | pointInExponent
  | secondExponent
  | secondPoint
  | emptyExponent
  | outOfRange
  | precisionLost
  | oddHexDigits
  | invalidHexDigit
deriving Repr, DecidableEq

namespace NumberFlaw

def message : NumberFlaw → String
  | noDigits => "no digits"
  | unexpectedCharacter => "unexpected character"
  | pointInExponent => "decimal point in exponent"
  | secondExponent => "second exponent"
  | secondPoint => "second decimal point"
  | emptyExponent => "exponent without digits"
  | outOfRange => "out of range for target codec"
  | precisionLost => "precision lost converting to f32"
  | oddHexDigits => "odd number of hex digits"
  | invalidHexDigit => "invalid hex digit"

end NumberFlaw

/-- Why a column cannot stand where its descriptor puts it. -/
inductive PlacementFlaw where
  | halfPlaced (start stop : Int)
  | reversed (start stop : Int)
  | wrongSize (type : ColumnType) (size slot : Nat)
  | pastRow (start stop rowLength : Nat)
  | layoutTooLong
deriving Repr, DecidableEq

namespace PlacementFlaw

def message : PlacementFlaw → String
  | halfPlaced start stop =>
      s!"begin {start} and end {stop} must both be set or both be -1"
  | reversed start stop => s!"end {stop} precedes begin {start}"
  | wrongSize type size slot => s!"{type.name} needs {size} bytes but the slot is {slot}"
  | pastRow start stop rowLength => s!"slot {start}..{stop} exceeds row length {rowLength}"
  | layoutTooLong => "row layout exceeds 2147483647 bytes"

end PlacementFlaw

inductive Error where
  | outOfRange (position limit : Nat)
  | underflow
  | overflow (position : Nat)
  | invalidBoolean (text : String)
  | malformedNumber (text : String) (flaw : NumberFlaw)
  | columnCountMismatch (row : Nat) (offset : Int) (expected found : Nat)
  | tooWide (first second : Nat)
  | noFields (start : Int)
  | shortBuffer (reader : String) (expected found : Nat)
  | typeMismatch (column found : ColumnType)
  | invalidUtf8 (offset : Nat)
  | nonBmp (codePoint : Nat)
  | invalidTemporal (type : ColumnType) (text : String)
  | unknownType (text : String)
  | unknownColumn (name : String)
  | columnIndex (index width : Nat)
  | rowIndex (index rows : Nat)
  | slotOverflow (name : String) (needed slot : Nat)
  | unpositioned (name : String)
  | invalidDescriptor (name : String) (flaw : PlacementFlaw)
  | cell (row column : Nat) (name : String) (start stop : Int) (source : Error)
  | trap (trap : Trap)
deriving Repr, DecidableEq

namespace Error

def message : Error → String
  | outOfRange position limit => s!"read past limit (pos {position}, limit {limit})"
  | underflow => "cursor underflow: position is already 0"
  | overflow position => s!"cursor overflow: position {position} is at the limit"
  | invalidBoolean text => s!"invalid boolean: {Text.quoted text}"
  | malformedNumber text flaw => s!"malformed number {Text.quoted text}: {flaw.message}"
  | columnCountMismatch row offset expected found =>
      s!"row {row} at byte {offset} has {found} fields, expected {expected}"
  | tooWide first second => s!"cannot pack {first}+{second} bits into a 64-bit word"
  | noFields start =>
      s!"internal invariant violated: no fields in line starting at byte {start}"
  | shortBuffer reader expected found => s!"{reader} needs {expected} bytes, got {found}"
  | typeMismatch column found => s!"{column.name} cannot encode a {found.name} value"
  | invalidUtf8 offset => s!"invalid UTF-8 sequence at byte {offset}"
  | nonBmp codePoint =>
      let digits := String.ofList ((Text.hexDigits codePoint).map Char.toUpper)
      s!"U+{digits} is outside the Basic Multilingual Plane"
  | invalidTemporal type text => s!"invalid {type.name}: {Text.quoted text}"
  | unknownType text => s!"unknown type codec {Text.quoted text}"
  | unknownColumn name => s!"no column named {Text.quoted name}"
  | columnIndex index width => s!"column index {index} out of range for {width} columns"
  | rowIndex index rows => s!"row index {index} out of range for {rows} rows"
  | slotOverflow name needed slot =>
      s!"column {Text.quoted name} encodes to {needed} bytes but its slot holds {slot}"
  | unpositioned name => s!"column {Text.quoted name} has no binary position"
  | invalidDescriptor name flaw =>
      s!"invalid descriptor for column {Text.quoted name}: {flaw.message}"
  | cell row column name start stop source =>
      s!"row {row}, column {column} ({Text.quoted name}), bytes {start}..{stop}: {source.message}"
  | trap _ => "arithmetic trap"

/-- Say in which cell an error arose. A trap stays as it is. -/
def inCell (row column : Nat) (name : String) (start stop : Int) : Error → Error
  | trap reason => trap reason
  | source => cell row column name start stop source

end Error

namespace ColumnType

def ofName (text : String) : Except Error ColumnType :=
  match ofName? text with
  | some type => .ok type
  | none => .error (.unknownType text)

end ColumnType

end RowStore
