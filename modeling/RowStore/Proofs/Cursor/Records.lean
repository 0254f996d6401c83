import Mathlib
import RowStore.Cursor.Records
import RowStore.Proofs.Row.Buffer

/-! Cursors over records decode what reading the records one by one decodes.

A cursor asks for the cells of a row by their numbers and says in an error where the cell stands;
reading a record goes through its columns. Both give the same values, or both give none.
-/

namespace RowStore

variable {order : ByteOrder} {layout : Layout} {column : Column} {bytes record : Bytes}
  {rowLength rows row : Nat} {values : List Value}

theorem RowCursor.columns_ofSource (source : RowSource) :
    (RowCursor.ofSource source).columns = source.columns := by
  have all (columns : List Column) :
      (List.range columns.length).filterMap (columns[·]?) = columns := by
    induction columns with
    | nil => rfl
    | cons column columns ih =>
        simp only [List.length_cons, List.range_succ_eq_map, List.filterMap_cons,
          List.getElem?_cons_zero, List.filterMap_map]
        exact congrArg (column :: ·) ih
  exact all source.columns

theorem RowCursor.cell_ofSource (source : RowSource) (row : Nat) {index : Nat}
    (known : index < source.width) :
    (RowCursor.ofSource source).cell row index = source.cell row index := by
  have visible : (List.range source.width)[index]? = some index := by
    rw [List.getElem?_range known]
  simp only [cell, sourceColumn, ofSource, visible, bind, Except.bind]

namespace RowCursor

theorem checkPlace_eq_ok_iff : checkPlace rowLength column = .ok () ↔
    column.validate = .ok () ∧ ∃ span, column.span? = some span ∧ span.stop ≤ rowLength := by
  rw [checkPlace, Outcome.bind_eq_ok_iff, Unique.exists_iff]
  refine and_congr_right fun _ => ?_
  cases column.span? with
  | none => simp
  | some span => rcases le_or_gt span.stop rowLength with inside | beyond <;> simp [*]

/-- A cursor is made just if each column ends inside the row and the rows fill the bytes. -/
theorem ofRecords_eq_ok_iff {cursor : RowCursor} :
    ofRecords bytes rowLength rows layout order = .ok cursor ↔
      (∀ column ∈ layout, checkPlace rowLength column = .ok ()) ∧
      min (rows * rowLength) sizeLimit = bytes.length ∧
      ofSource (.ofRecords bytes rowLength rows layout order) = cursor := by
  rw [ofRecords, Outcome.bind_eq_ok_iff]
  simp only [Outcome.forM_eq_ok_iff]
  by_cases filled : min (rows * rowLength) sizeLimit = bytes.length <;> simp [filled]

theorem ofRecords_eq_ok (valid : ∀ column ∈ layout, column.validate = .ok ())
    (placed : ∀ column ∈ layout, column.isPlaced = true)
    (length : bytes.length = rows * layout.rowLength) (fits : rows * layout.rowLength ≤ sizeLimit) :
    ofRecords bytes layout.rowLength rows (layout.map Column.withoutStages) order =
      .ok (ofSource (.ofRecords bytes layout.rowLength rows (layout.map Column.withoutStages) order)) := by
  rw [ofRecords_eq_ok_iff, min_eq_left fits, List.forall_mem_map]
  refine ⟨fun column mem => ?_, length.symm, rfl⟩
  exact checkPlace_eq_ok_iff.mpr ⟨Column.validate_withoutStages (valid column mem), column.span,
    Slot.span?_eq (placed column mem), Layout.stop_le_rowLength mem (placed column mem)⟩

/-- A cell is read from the record of its row, and an error shows where that is. -/
theorem cell_ofRecords {index : Nat} (found : layout[index]? = some column)
    (slice : bytes.slice? (row * rowLength) (row * rowLength + rowLength) = some record) :
    (ofSource (.ofRecords bytes rowLength rows layout order)).cell row index =
      (Row.readCell order record column).mapError
        (.inCell row index column.name ((row * rowLength : Nat) + column.start.toInt)
          ((row * rowLength : Nat) + column.stop.toInt)) := by
  have known : index < layout.length := (List.getElem?_eq_some_iff.mp found).1
  rw [cell_ofSource (.ofRecords bytes rowLength rows layout order) row known]
  simp only [RowSource.ofRecords, slice, found]

theorem cell_ofRecords_eq_ok_iff {value : Value} {index : Nat} (known : index < layout.length)
    (slice : bytes.slice? (row * rowLength) (row * rowLength + rowLength) = some record) :
    (ofSource (.ofRecords bytes rowLength rows layout order)).cell row index = .ok value ↔
      Row.readCell order record layout[index] = .ok value := by
  rw [cell_ofRecords (List.getElem?_eq_getElem known) slice, Outcome.mapError_eq_ok_iff]

/-- A row of a cursor over records has the values that its record has. -/
theorem row_ofRecords_eq_ok_iff (inside : row < rows)
    (slice : bytes.slice? (row * rowLength) (row * rowLength + rowLength) = some record) :
    (ofSource (.ofRecords bytes rowLength rows layout order)).row row = .ok values ↔
      Row.read order record layout = .ok values := by
  have checked : (ofSource (.ofRecords bytes rowLength rows layout order)).checkRow row = .ok () :=
    if_pos inside
  have width : (ofSource (.ofRecords bytes rowLength rows layout order)).width = layout.length :=
    List.length_range
  rw [RowCursor.row, checked]
  simp only [bind, Except.bind, rowValues, width]
  rw [Row.read, Outcome.mapM_eq_ok_iff, Outcome.mapM_eq_ok_iff, List.forall₂_iff_get,
    List.forall₂_iff_get]
  refine and_congr (by rw [List.length_range]) (forall_congr' fun index => ?_)
  constructor
  · intro cells known valued
    have cell := cells (by rwa [List.length_range]) valued
    rw [List.get_eq_getElem, List.getElem_range] at cell
    exact (cell_ofRecords_eq_ok_iff known slice).mp cell
  · intro cells known valued
    rw [List.get_eq_getElem, List.getElem_range]
    rw [List.length_range] at known
    exact (cell_ofRecords_eq_ok_iff known slice).mpr (cells known valued)

end RowCursor

end RowStore
