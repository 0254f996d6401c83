import RowStore.Bytes
import RowStore.Column
import RowStore.Fault

/-! The stored form of a layout.

A column is the length of its name in two bytes, its name in UTF-8, the id of its type in one byte,
and where its slot starts and ends in four bytes each. Later stages of a column are not stored.
-/

namespace RowStore.Schema

def writeColumn (column : Column) : Except Fault Bytes :=
  let name := Text.Utf8.ofString column.name
  if name.length ≤ 65535 then
    .ok (Bytes.ofNat 2 name.length ++ name ++ [UInt8.ofNat column.type.id] ++
      Bytes.ofNat 4 column.start.toUInt32.toNat ++ Bytes.ofNat 4 column.stop.toUInt32.toNat)
  else .error (.oversize (.columnName column.name))

def encode (layout : Layout) : Except Fault Bytes := do
  let columns ← layout.mapM writeColumn
  .ok columns.flatten

/-- What is left of a schema, and where it starts. -/
structure Unread where
  offset : Nat
  rest : Bytes
deriving Repr, DecidableEq

namespace Unread

def take (unread : Unread) (count : Nat) : Except Fault (Bytes × Unread) :=
  if count ≤ unread.rest.length then
    .ok (unread.rest.take count, ⟨unread.offset + count, unread.rest.drop count⟩)
  else .error (.schemaTruncated unread.offset)

def takeNumber (unread : Unread) (width : Nat) : Except Fault (Nat × Unread) :=
  (unread.take width).map fun (bytes, after) => (Bytes.toNat bytes, after)

def takeName (unread : Unread) (length : Nat) : Except Fault (String × Unread) := do
  let (bytes, after) ← unread.take length
  match Text.Utf8.toString bytes with
  | .ok name => .ok (name, after)
  | .error flaw => .error (.nameEncoding flaw)

end Unread

def bound (number : Nat) : Int32 := (UInt32.ofNat number).toInt32

def readColumn (unread : Unread) : Except Fault (Column × Unread) := do
  let (length, unread) ← unread.takeNumber 2
  let (name, unread) ← unread.takeName length
  let (id, unread) ← unread.takeNumber 1
  match ColumnType.ofId? id with
  | none => .error (.unknownColumnType name id)
  | some type => do
      let (start, unread) ← unread.takeNumber 4
      let (stop, unread) ← unread.takeNumber 4
      let column ← Outcome.ofData (Column.placed name type (bound start) (bound stop))
      .ok (column, unread)

def readColumns : (count : Nat) → Unread → Except Fault Layout
  | 0, _ => .ok []
  | count + 1, unread => do
      let (column, unread) ← readColumn unread
      let columns ← readColumns count unread
      .ok (column :: columns)

/-- The first `count` columns. What follows them does not matter. -/
def decode (count : Nat) (bytes : Bytes) : Except Fault Layout := readColumns count ⟨0, bytes⟩

end RowStore.Schema
