import Mathlib
import RowStore.Proofs.Row.Sentinel

/-! Layouts tile the row.

Each of the columns that are placed one after another takes just the bytes that were asked for, no two
of them share a byte, and none of the bytes of a row is left between them or behind the last one.
-/

namespace RowStore

theorem Slot.Apart.disjoint {left right : Slot} (apart : left.Apart right) : left.Disjoint right := by
  intro offset inLeft beforeLeft inRight
  rcases apart with before | behind <;> omega

namespace Layout

/-- A row is as long as its columns are together. -/
theorem rowLength_of_place {asked : List (String × ColumnType × Nat)} {layout : Layout}
    (placed : place asked = .ok layout) : layout.rowLength = extent asked := by
  apply le_antisymm
  · refine rowLength_le fun column mem => ?_
    obtain ⟨index, found⟩ := List.mem_iff_getElem?.mp mem
    obtain ⟨request, requested, rfl, inside⟩ := exists_tile placed found
    rw [(isPlaced_tile inside).2, ← extent_take_succ requested]
    exact extent_take_le asked _
  -- The last column ends where the row does.
  · obtain ⟨fits, rfl⟩ := place_eq_ok_iff.mp placed
    rcases List.eq_nil_or_concat asked with rfl | ⟨before, request, rfl⟩
    · exact Nat.zero_le _
    · rw [List.concat_eq_append, extent_append, extent_cons] at fits
      have inside : extent before + room request ≤ 2147483647 := fits
      have last : tile request (extent before) ∈ tiles 0 (before.concat request) := by
        refine List.mem_of_getElem? (i := before.length) ?_
        rw [getElem?_tiles, List.concat_eq_append, List.getElem?_concat_length, List.take_left,
          Option.map_some, Nat.zero_add]
      obtain ⟨positioned, span⟩ := isPlaced_tile inside
      have within := stop_le_rowLength last positioned
      rw [span] at within
      rwa [List.concat_eq_append, extent_append, extent_cons, ← List.concat_eq_append]

/-- Columns are placed just if they take no more than the greatest offset together, and otherwise the
first one that ends behind it is refused. Placed, each has the name and the type that was asked for,
starts where those before it end, has the bytes of its type or of the given width, and could stand
there alone. No two columns share a byte, and the row is as long as all of them. -/
theorem place_tiles (asked : List (String × ColumnType × Nat)) :
    ((∃ layout, place asked = .ok layout) ↔ extent asked ≤ 2147483647) ∧
    (∀ reason, place asked = .error reason ↔ ∃ before request after,
      asked = before ++ request :: after ∧ extent before ≤ 2147483647 ∧
        2147483647 < extent before + room request ∧
        reason = .invalidDescriptor request.1 .layoutTooLong) ∧
    ∀ layout, place asked = .ok layout →
      layout.length = asked.length ∧
      (∀ (index : Nat) (request : String × ColumnType × Nat) (column : Column),
        asked[index]? = some request → layout[index]? = some column →
          column.name = request.1 ∧ column.type = request.2.1 ∧ column.stages = [] ∧
          column.span? = some ⟨extent (asked.take index), extent (asked.take (index + 1))⟩ ∧
          column.span.length = room request ∧ column.validate = .ok ()) ∧
      layout.Pairwise (fun left right => left.Disjoint right.toSlot) ∧
      layout.rowLength = extent asked := by
  refine ⟨by simp only [place_eq_ok_iff, exists_and_left, exists_eq, and_true],
    fun reason => place_eq_error_iff, fun layout placed => ⟨length_of_place placed, ?_,
      (apart_of_place placed).imp Slot.Apart.disjoint, rowLength_of_place placed⟩⟩
  intro index request column requested found
  obtain ⟨other, also, rfl, inside⟩ := exists_tile placed found
  obtain rfl := Option.some.inj (also.symm.trans requested)
  obtain ⟨positioned, span⟩ := isPlaced_tile inside
  refine ⟨rfl, rfl, rfl, ?_, ?_, validate_tile inside⟩
  · rw [Slot.span?_eq positioned, span, extent_take_succ requested]
  · rw [span, Span.length, Nat.add_sub_cancel_left]

/-- A number, a text of ten bytes, an empty column and another number; and a boolean behind a text that
ends at the greatest offset. -/
theorem place_tiles_empty_slot_and_full_row :
    let asked : List (String × ColumnType × Nat) :=
      [("id", .integer .int32, 0), ("name", .string, 10), ("none", .nothing, 0), ("score", .double, 3)]
    (∃ layout, place asked = .ok layout ∧ layout.rowLength = 22 ∧
      ∀ column, layout[2]? = some column → column.span? = some ⟨14, 14⟩) ∧
    place [("text", .string, 2147483647), ("flag", .boolean, 0), ("rest", .bytes, 0)] =
      .error (.invalidDescriptor "flag" .layoutTooLong) := by
  intro asked
  constructor
  · obtain ⟨layout, placed⟩ := (place_tiles asked).1.mpr (by decide)
    obtain ⟨-, slots, -, length⟩ := (place_tiles asked).2.2 layout placed
    exact ⟨layout, placed, length, fun column found => (slots 2 _ column rfl found).2.2.2.1⟩
  · exact ((place_tiles _).2.1 _).mpr
      ⟨[("text", .string, 2147483647)], ("flag", .boolean, 0), [("rest", .bytes, 0)], rfl,
        by decide, by decide, rfl⟩

end Layout

end RowStore
