import RowStore.Csv.Table
import RowStore.Fault

/-! The row layout of a table.

Columns take the types deduced from their fields, unless a type is forced. Slots of variable size are
as wide as the widest field.
-/

namespace RowStore.Csv

/-- Types forced by column name. -/
abbrev Overrides := List (String × ColumnType)

namespace Overrides

/-- The type forced for a column. Of several, the last one counts. -/
def type? (overrides : Overrides) (name : String) : Option ColumnType :=
  overrides.reverse.lookup name

/-- A name and a type with a colon between them. The name may hold colons of its own. -/
def readOne (spec : String) : Except Fault (String × ColumnType) :=
  let parts := spec.toList.reverse
  let word := (parts.takeWhile (· ≠ ':')).reverse
  match (parts.dropWhile (· ≠ ':')).tail? with
  | none => .error (.overrideForm spec)
  | some name => do
      let type ← Outcome.ofData (ColumnType.ofName (String.ofList word))
      .ok (String.ofList name.reverse, type)

def read (specs : List String) : Except Fault Overrides := specs.mapM readOne

/-- A forced type must have its column. -/
def check (overrides : Overrides) (names : List String) : Except Fault Unit :=
  match overrides.find? fun (name, _) => !names.contains name with
  | some (name, _) => .error (.overrideColumn name)
  | none => .ok ()

end Overrides

/-- The columns to place: name, type and width. -/
def slots (overrides : Overrides) (names : List String) (evidence : List Evidence) :
    List (String × ColumnType × Nat) :=
  (names.zip evidence).map fun (name, found) =>
    (name, (overrides.type? name).getD found.deduce.type, found.width)

/-- Scan a table, and lay its columns out one behind the other. -/
def layout (bytes : Bytes) (overrides : Overrides) : Except Fault (RowCursor × Layout) := do
  let (cursor, evidence) := readText bytes (some [])
  let cursor ← Outcome.ofData cursor
  overrides.check cursor.names
  let layout ← Outcome.ofData (Layout.place (slots overrides cursor.names (evidence.getD [])))
  .ok (cursor, layout)

end RowStore.Csv
