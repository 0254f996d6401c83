import RowStore.Column
import RowStore.Value

/-! Rows by number, seen through a choice of columns.

A source answers for each of its cells; a cursor lists which columns of a source are visible, in
which order, and may name one more than once. Projections change the list and copy no cell.
-/

namespace RowStore

structure RowSource where
  columns : List Column
  length : Nat
  cell : (row column : Nat) → Except Error Value
  /-- The column as it stands in one row. -/
  cellColumn : (row column : Nat) → Option Column

namespace RowSource

def width (source : RowSource) : Nat := source.columns.length

/-- The source of rows that are there as values. -/
def ofRows (columns : List Column) (rows : List (List Value)) : RowSource where
  columns
  length := rows.length
  cell row column :=
    match rows[row]?.bind (·[column]?) with
    | some value => .ok value
    | none => .error (.trap .outOfBounds)
  cellColumn _ column := columns[column]?

end RowSource

structure RowCursor where
  source : RowSource
  visible : List Nat

namespace RowCursor

def ofSource (source : RowSource) : RowCursor := ⟨source, List.range source.width⟩

/-- The first row whose number of values is not the number of columns. -/
def misfit? (width : Nat) (rows : List (List Value)) : Option (Nat × Nat) :=
  (rows.findIdx? (·.length ≠ width)).bind fun row => rows[row]?.map fun values => (row, values.length)

def ofRows (columns : List Column) (rows : List (List Value)) : Except Error RowCursor :=
  match misfit? columns.length rows with
  | some (row, found) => .error (.columnCountMismatch row (-1) columns.length found)
  | none => .ok (ofSource (.ofRows columns rows))

def length (cursor : RowCursor) : Nat := cursor.source.length

def width (cursor : RowCursor) : Nat := cursor.visible.length

/-- The columns of the source, in the order in which they are visible. -/
def columns (cursor : RowCursor) : List Column :=
  cursor.visible.filterMap (cursor.source.columns[·]?)

def names (cursor : RowCursor) : List String := cursor.columns.map fun column => column.name

def sourceColumn (cursor : RowCursor) (column : Nat) : Except Error Nat :=
  match cursor.visible[column]? with
  | some index => .ok index
  | none => .error (.columnIndex column cursor.width)

def checkRow (cursor : RowCursor) (row : Nat) : Except Error Unit :=
  if row < cursor.length then .ok () else .error (.rowIndex row cursor.length)

/-- A cell of a row that is known to exist. -/
def cell (cursor : RowCursor) (row column : Nat) : Except Error Value := do
  let index ← cursor.sourceColumn column
  cursor.source.cell row index

def value (cursor : RowCursor) (row column : Nat) : Except Error Value := do
  cursor.checkRow row
  cursor.cell row column

/-- The column of a cell, with the place that it has in this row. -/
def cellColumn (cursor : RowCursor) (row column : Nat) : Except Error Column := do
  cursor.checkRow row
  let index ← cursor.sourceColumn column
  match cursor.source.cellColumn row index with
  | some found => .ok found
  | none => .error (.trap .outOfBounds)

/-- The values of a row that is known to exist. -/
def rowValues (cursor : RowCursor) (row : Nat) : Except Error (List Value) :=
  (List.range cursor.width).mapM (cursor.cell row)

def row (cursor : RowCursor) (row : Nat) : Except Error (List Value) := do
  cursor.checkRow row
  cursor.rowValues row

/-- The visible index of each name; of columns of one name, that of the first. -/
def indices (cursor : RowCursor) (names : List String) : Except Error (List Nat) :=
  names.mapM fun name =>
    match Layout.indexOf? cursor.columns name with
    | some index => .ok index
    | none => .error (.unknownColumn name)

/-- The value of a row in the column of a name. -/
def get (cursor : RowCursor) (row : Nat) (name : String) : Except Error Value := do
  cursor.checkRow row
  match Layout.indexOf? cursor.columns name with
  | some index => cursor.cell row index
  | none => .error (.unknownColumn name)

def isNumeric (cursor : RowCursor) : Bool := cursor.columns.all (·.finalType.isNumeric)

/-- Do all visible columns end up in one type? -/
def isHomogeneous (cursor : RowCursor) : Bool :=
  (cursor.columns.zip (cursor.columns.drop 1)).all fun (left, right) =>
    left.finalType = right.finalType

/-- Keep the columns of some visible indices, in the given order. -/
def select (cursor : RowCursor) (indices : List Nat) : Except Error RowCursor :=
  (indices.mapM cursor.sourceColumn).map fun visible => { cursor with visible }

/-- Keep the columns from `start` up to `stop`. Of a range that goes on past the last column, the
first index beyond it is refused, and no more are listed. A range that no memory could list traps. -/
def selectRange (cursor : RowCursor) (start stop : Nat) : Except Error RowCursor :=
  if 1 <<< 63 ≤ 8 * (stop - start) then .error (.trap .allocation)
  else cursor.select (List.range' start (min (stop - start) (cursor.width + 1)))

def selectNames (cursor : RowCursor) (names : List String) : Except Error RowCursor := do
  let indices ← cursor.indices names
  cursor.select indices

/-- Drop the columns of some visible indices. Other indices do not matter. -/
def exclude (cursor : RowCursor) (indices : List Nat) : RowCursor :=
  let kept := cursor.visible.zipIdx.filter fun (_, index) => !indices.contains index
  { cursor with visible := kept.map Prod.fst }

def excludeNames (cursor : RowCursor) (names : List String) : Except Error RowCursor :=
  (cursor.indices names).map cursor.exclude

def describe (cursor : RowCursor) : String :=
  "RowCursor \x7b columns: [" ++ ", ".intercalate (cursor.visible.map toString) ++ "], .. \x7d"

end RowCursor

end RowStore
