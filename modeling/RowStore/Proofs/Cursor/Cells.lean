import Mathlib
import RowStore.Proofs.Cursor.Records
import RowStore.Proofs.Row.Sentinel
import RowStore.Proofs.Trapping

/-! Cells of records, asked for one at a time.

When every column ends inside the row and the rows fill the bytes, each record is a part of the bytes
and each slot a part of its record. So a cell comes to what its column comes to when it is read from
the record alone, and an error says where in all the bytes the cell stands.
-/

namespace RowStore

open Outcome (Traps)

variable {order : ByteOrder} {layout : Layout} {column : Column} {bytes record : Bytes}
  {rowLength rows row index : Nat}

/-- A part of a part is a part of the whole. -/
theorem Bytes.slice?_slice? {start stop first last : Nat} {part : Bytes}
    (slice : bytes.slice? start stop = some part) (inside : last ≤ part.length) :
    bytes.slice? (start + first) (start + last) = part.slice? first last := by
  obtain ⟨ordered, within, length⟩ := length_slice? slice
  by_cases forward : first ≤ last
  · have smaller : part.slice? first last = some ((part.drop first).take (last - first)) :=
      if_pos ⟨forward, inside⟩
    rw [smaller, slice?_eq_some_iff]
    refine ⟨by omega, by omega, fun index => ?_⟩
    rw [List.getElem?_take, List.getElem?_drop, getElem?_slice? slice, Nat.add_sub_add_left,
      ← Nat.add_assoc]
    split_ifs with near far
    · rfl
    · omega
    · rfl
  · rw [slice?, slice?, if_neg (by omega), if_neg (by omega)]

/-- What an error says of its cell, unless it is a trap. -/
theorem Outcome.mapError_inCell {α : Type} {result : Except Error α} {name : String} {start stop : Int}
    (quiet : ¬ Traps Error.trap result) :
    result.mapError (Error.inCell row index name start stop) =
      result.mapError (Error.cell row index name start stop) := by
  cases result with
  | ok found => rfl
  | error reason =>
      cases reason with
      | trap caught => exact absurd ⟨caught, rfl⟩ quiet
      | _ => rfl

namespace Row

theorem read_singleton (order : ByteOrder) (record : Bytes) (column : Column) :
    read order record [column] = (readCell order record column).map ([·]) := by
  rw [read, List.mapM_cons, List.mapM_nil]
  cases readCell order record column <;> rfl

/-- A column that ends inside its record is decoded from its slot. -/
theorem readCell_eq (stands : Stands record.length column) :
    ∃ slot, record.slice? column.span.start column.span.stop = some slot ∧
      readCell order record column = column.type.decode order (significant column.type slot) := by
  have slot : record.slice? column.span.start column.span.stop =
      some ((record.drop column.span.start).take (column.span.stop - column.span.start)) :=
    if_pos ⟨stands.ordered, stands.inside⟩
  refine ⟨_, slot, ?_⟩
  rw [readCell, Slot.span?_eq stands.placed]
  dsimp only
  rw [slot]

end Row

namespace RowCursor

theorem stands_of_checkPlace (checked : checkPlace rowLength column = .ok ()) :
    Row.Stands rowLength column := by
  obtain ⟨valid, span, place, inside⟩ := checkPlace_eq_ok_iff.mp checked
  have placed : column.isPlaced = true := by
    by_contra none
    rw [Slot.span?, if_neg none] at place
    cases place
  obtain rfl : column.span = span := Option.some.inj ((Slot.span?_eq placed).symm.trans place)
  exact ⟨placed, (Column.span_of_validate valid placed).1, inside⟩

/-- Every row has a record among the bytes that the rows fill. -/
theorem exists_record (filled : rows * rowLength = bytes.length) (inside : row < rows) :
    ∃ record, bytes.slice? (row * rowLength) ((row + 1) * rowLength) = some record ∧
      record.length = rowLength := by
  have within : (row + 1) * rowLength ≤ bytes.length :=
    filled ▸ Nat.mul_le_mul_right rowLength (Nat.succ_le_of_lt inside)
  have forward : row * rowLength ≤ (row + 1) * rowLength :=
    Nat.mul_le_mul_right rowLength (Nat.le_succ row)
  refine ⟨_, if_pos ⟨forward, within⟩, ?_⟩
  rw [List.length_take, List.length_drop]
  rw [Nat.succ_mul] at *
  omega

section Values

theorem value_of_row_beyond (source : RowSource) (beyond : source.length ≤ row) (index : Nat) :
    (ofSource source).value row index = .error (.rowIndex row source.length) := by
  have refused : (ofSource source).checkRow row = .error (.rowIndex row source.length) :=
    if_neg (not_lt.mpr beyond)
  rw [value, refused]
  rfl

theorem value_of_column_beyond (source : RowSource) (inside : row < source.length) (beyond : source.width ≤ index) :
    (ofSource source).value row index = .error (.columnIndex index source.width) := by
  have checked : (ofSource source).checkRow row = .ok () := if_pos inside
  have hidden : (List.range source.width)[index]? = none :=
    List.getElem?_eq_none (by rwa [List.length_range])
  have width : (ofSource source).width = source.width := List.length_range
  rw [value, checked, cell, sourceColumn, width]
  simp only [ofSource, hidden, bind, Except.bind]

/-- Reading a record does not trap, so that an error is one of its cell. -/
theorem value_ofRecords (inside : row < rows) (found : layout[index]? = some column)
    (slice : bytes.slice? (row * rowLength) ((row + 1) * rowLength) = some record) :
    (ofSource (.ofRecords bytes rowLength rows layout order)).value row index =
      (Row.readCell order record column).mapError
        (.cell row index column.name ((row * rowLength : Nat) + column.start.toInt)
          ((row * rowLength : Nat) + column.stop.toInt)) := by
  have checked : (ofSource (.ofRecords bytes rowLength rows layout order)).checkRow row = .ok () :=
    if_pos inside
  rw [Nat.succ_mul] at slice
  rw [value, checked, ← Outcome.mapError_inCell Row.not_traps_readCell]
  exact cell_ofRecords found slice

theorem not_traps_value (filled : rows * rowLength = bytes.length) (row index : Nat) :
    ¬ Traps Error.trap ((ofSource (.ofRecords bytes rowLength rows layout order)).value row index) := by
  rcases lt_or_ge row rows with inside | beyond
  · rcases lt_or_ge index layout.length with known | hidden
    · obtain ⟨record, slice, -⟩ := exists_record filled inside
      rw [value_ofRecords inside (List.getElem?_eq_getElem known) slice]
      rintro ⟨caught, same⟩
      cases read : Row.readCell order record layout[index] <;> rw [read] at same <;> cases same
    · rw [value_of_column_beyond (.ofRecords bytes rowLength rows layout order) inside hidden]
      simp [Traps]
  · rw [value_of_row_beyond (.ofRecords bytes rowLength rows layout order) beyond]
    simp [Traps]

end Values

section Counting

theorem exists_ofRecords_iff (held : bytes.length < sizeLimit) :
    (∃ cursor, ofRecords bytes rowLength rows layout order = .ok cursor) ↔
      (∀ column ∈ layout, checkPlace rowLength column = .ok ()) ∧
        rows * rowLength = bytes.length := by
  have exact : min (rows * rowLength) sizeLimit = bytes.length ↔ rows * rowLength = bytes.length := by
    omega
  simp only [ofRecords_eq_ok_iff, exact, exists_and_left, exists_eq', and_true]

/-- The number of rows that is counted is the one that fills the bytes. -/
theorem ofBytes_eq_ok_iff {cursor : RowCursor} :
    ofBytes bytes rowLength layout order = .ok cursor ↔ rowLength ∣ bytes.length ∧
      ofRecords bytes rowLength (bytes.length / rowLength) layout order = .ok cursor := by
  have whole : bytes.length / rowLength * rowLength = bytes.length ↔ rowLength ∣ bytes.length :=
    ⟨fun same => ⟨_, (same.symm.trans (Nat.mul_comm _ _))⟩, Nat.div_mul_cancel⟩
  rw [ofBytes]
  by_cases divides : rowLength ∣ bytes.length
  · rw [if_neg (not_not_intro (whole.mpr divides)), and_iff_right divides]
  · rw [if_pos (whole.not.mpr divides)]
    exact iff_of_false (by simp) fun both => divides both.1

end Counting

/-- Over fewer bytes than the greatest size, a cursor is made just if every column is valid, has a place
and ends inside the row, and the rows fill the bytes. No cell of it traps. A cell comes to what reading
its column alone from the record of its row comes to, and an error gives row, column and the bytes
that the cell has among all of them. Without a number of rows, a cursor is made just if one is made
with some number, which then is the number counted; rows of no bytes are only counted in no bytes. -/
theorem ofRecords_exact (order : ByteOrder) (bytes : Bytes) (rowLength : Nat) (layout : Layout)
    (held : bytes.length < sizeLimit) :
    (∀ rows, (∃ cursor, ofRecords bytes rowLength rows layout order = .ok cursor) ↔
      (∀ column ∈ layout, column.validate = .ok () ∧
        ∃ span, column.span? = some span ∧ span.stop ≤ rowLength) ∧
      rows * rowLength = bytes.length) ∧
    (∀ rows cursor, ofRecords bytes rowLength rows layout order = .ok cursor →
      cursor.length = rows ∧ cursor.columns = layout ∧
      (∀ row index, ¬ Traps Error.trap (cursor.value row index)) ∧
      ∀ row < rows, ∃ record,
        bytes.slice? (row * rowLength) ((row + 1) * rowLength) = some record ∧
        ∀ (index : Nat) (column : Column), layout[index]? = some column →
          ((cursor.value row index).map ([·]) = (Row.read order record [column]).mapError
            (.cell row index column.name ((row * rowLength : Nat) + column.start.toInt)
              ((row * rowLength : Nat) + column.stop.toInt))) ∧
          ∃ slot, bytes.slice? (row * rowLength + column.span.start)
              (row * rowLength + column.span.stop) = some slot ∧
            Row.readCell order record column =
              column.type.decode order (Row.significant column.type slot)) ∧
    ((∃ cursor, ofBytes bytes rowLength layout order = .ok cursor) ↔
      ∃ rows cursor, ofRecords bytes rowLength rows layout order = .ok cursor) ∧
    ∀ cursor, ofBytes bytes rowLength layout order = .ok cursor →
      ofRecords bytes rowLength cursor.length layout order = .ok cursor ∧
        (rowLength = 0 → bytes = []) := by
  refine ⟨fun rows => ?_, fun rows cursor made => ?_, ?_, fun cursor made => ?_⟩
  · simp only [exists_ofRecords_iff held, checkPlace_eq_ok_iff]
  · have filled := ((exists_ofRecords_iff held).mp ⟨cursor, made⟩).2
    obtain ⟨checked, -, rfl⟩ := ofRecords_eq_ok_iff.mp made
    refine ⟨rfl, columns_ofSource _, not_traps_value filled, fun row inside => ?_⟩
    obtain ⟨record, slice, length⟩ := exists_record filled inside
    refine ⟨record, slice, fun index column found => ⟨?_, ?_⟩⟩
    · rw [value_ofRecords inside found slice, Row.read_singleton]
      cases Row.readCell order record column <;> rfl
    · have stands := stands_of_checkPlace (checked column (List.mem_of_getElem? found))
      rw [← length] at stands
      rw [Bytes.slice?_slice? slice stands.inside]
      exact Row.readCell_eq stands
  · constructor
    · rintro ⟨cursor, made⟩
      exact ⟨_, cursor, (ofBytes_eq_ok_iff.mp made).2⟩
    · rintro ⟨rows, made⟩
      obtain ⟨checked, filled⟩ := (exists_ofRecords_iff held).mp made
      have divides : rowLength ∣ bytes.length := ⟨rows, by rw [← filled, Nat.mul_comm]⟩
      simp only [ofBytes_eq_ok_iff, exists_and_left]
      exact ⟨divides, (exists_ofRecords_iff held).mpr ⟨checked, Nat.div_mul_cancel divides⟩⟩
  · obtain ⟨⟨rows, filled⟩, made⟩ := ofBytes_eq_ok_iff.mp made
    obtain ⟨-, -, rfl⟩ := ofRecords_eq_ok_iff.mp made
    refine ⟨made, fun empty => List.eq_nil_of_length_eq_zero ?_⟩
    rw [filled, empty, Nat.zero_mul]

/-- Two rows of a number and a text, the second text of which is no UTF-8. -/
theorem ofRecords_exact_two_rows :
    let bytes : Bytes := [1, 2, 97, 0, 0, 255, 254, 98, 195, 40]
    let layout : Layout := [⟨⟨"n", .integer .int16, 0, 2⟩, []⟩, ⟨⟨"s", .string, 2, 5⟩, []⟩]
    bytes.length < sizeLimit ∧ ∃ cursor, ofRecords bytes 5 2 layout .big = .ok cursor ∧
      (∀ row index, ¬ Traps Error.trap (cursor.value row index)) ∧
      (cursor.value 0 0).map ([·]) = .ok [.integer .int16 ⟨258, by decide⟩] ∧
      (cursor.value 1 1).map ([·]) = .error (.cell 1 1 "s" 7 10 (.invalidUtf8 1)) := by
  intro bytes layout
  have held : bytes.length < sizeLimit := by decide
  obtain ⟨made, cells, -⟩ := ofRecords_exact .big bytes 5 layout held
  have checked : ∀ column ∈ layout, column.validate = .ok () ∧
      ∃ span, column.span? = some span ∧ span.stop ≤ 5 := by
    simp only [layout, List.forall_mem_cons, List.not_mem_nil, false_imp_iff, implies_true, and_true]
    exact ⟨⟨by decide +kernel, ⟨0, 2⟩, by decide +kernel, by decide⟩,
      ⟨by decide +kernel, ⟨2, 5⟩, by decide +kernel, by decide⟩⟩
  obtain ⟨cursor, same⟩ := (made 2).mpr ⟨checked, rfl⟩
  obtain ⟨-, -, quiet, rows⟩ := cells 2 cursor same
  obtain ⟨first, firstSlice, firstCells⟩ := rows 0 (by decide)
  obtain ⟨second, secondSlice, secondCells⟩ := rows 1 (by decide)
  cases firstSlice
  cases secondSlice
  refine ⟨held, cursor, same, quiet, ?_, ?_⟩
  · rw [(firstCells 0 _ rfl).1]
    decide +kernel
  · rw [(secondCells 1 _ rfl).1]
    decide +kernel

end RowCursor

end RowStore
