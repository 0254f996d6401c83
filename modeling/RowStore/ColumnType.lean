import RowStore.Number.Integer
import RowStore.Text.Blank

/-! The types a column can have, with their names, ids and stored sizes. -/

namespace RowStore

inductive ColumnType where
  | boolean
  | integer (type : IntType)
  | single
  | double
  | date
  | instant
  | string
  | chars
  | bytes
  | nothing
deriving Repr, DecidableEq

namespace ColumnType

/-- Every type, at the position of its id. -/
def all : List ColumnType := [
  boolean, integer .int8, integer .uint8, integer .int16, integer .uint16, integer .int32,
  integer .uint32, integer .int64, integer .uint64, single, double, date, instant, string, chars,
  bytes, nothing]

/-- The id under which schemas store the type. -/
def id : ColumnType → Nat
  | boolean => 0
  | integer type => 1 + 2 * type.width.rank + (if type.signed then 0 else 1)
  | single => 9
  | double => 10
  | date => 11
  | instant => 12
  | string => 13
  | chars => 14
  | bytes => 15
  | nothing => 16

def ofId? (id : Nat) : Option ColumnType := all[id]?

theorem ofId?_id (type : ColumnType) : ofId? type.id = some type := by
  cases type with
  | integer type => obtain ⟨signed, width⟩ := type; cases signed <;> cases width <;> rfl
  | _ => rfl

theorem id_of_ofId? {id : Nat} {type : ColumnType} (found : ofId? id = some type) :
    type.id = id := by
  have inside : id < all.length := (List.getElem?_eq_some_iff.mp found).1
  have cases : ∀ n < 17, ∀ type, ofId? n = some type → type.id = n := by decide +revert
  exact cases id inside type found

def name : ColumnType → String
  | boolean => "bool"
  | integer type => type.name
  | single => "f32"
  | double => "f64"
  | date => "date"
  | instant => "instant"
  | string => "string"
  | chars => "chars"
  | bytes => "bytes"
  | nothing => "none"

/-- The name used in schema listings. -/
def label : ColumnType → String
  | boolean => "Boolean"
  | integer type =>
      (if type.signed then "" else "U") ++
        match type.width with
        | .w8 => "Byte"
        | .w16 => "Short"
        | .w32 => "Int"
        | .w64 => "Long"
  | single => "Float"
  | double => "Double"
  | date => "Date"
  | instant => "Instant"
  | string => "String"
  | chars => "Chars"
  | bytes => "Bytes"
  | nothing => "Nothing"

/-- Further spellings of a type, beside its name. -/
def aliases : ColumnType → List String
  | boolean => ["boolean"]
  | integer type => [(label (integer type)).toLower]
  | single => ["float"]
  | double => ["double"]
  | instant => ["timestamp"]
  | string => ["str", "text"]
  | nothing => ["nothing"]
  | _ => []

/-- White space around the name and the case of its ASCII letters do not matter. -/
def ofName? (text : String) : Option ColumnType :=
  let word := (Text.trimString text).map Char.toLower
  all.find? fun type => type.name = word || type.aliases.contains word

def ofLabel? (label : String) : Option ColumnType := all.find? (·.label = label)

/-- Bytes of a stored value, for the types whose values all take the same room. -/
def size? : ColumnType → Option Nat
  | boolean => some 1
  | integer type => some type.width.bytes
  | single => some 4
  | double | date => some 8
  | instant => some 12
  | string | chars | bytes | nothing => none

def isIntegral : ColumnType → Bool
  | integer _ => true
  | _ => false

def isNumeric : ColumnType → Bool
  | integer _ | single | double => true
  | _ => false

end ColumnType

end RowStore
