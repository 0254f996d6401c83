import Mathlib
import RowStore.Column
import RowStore.Proofs.Outcome

/-! Where the columns of a layout stand.

Every column starts where the columns before it end, so that the place of a column is a sum of
lengths. A slot that is placed so has no flaw, and the only thing left to refuse is a column that ends
behind the greatest offset.
-/

namespace RowStore

section Slots

variable {slot : Slot}

/-- Where a placed slot starts and stops. -/
def Slot.span (slot : Slot) : Span := ⟨slot.start.toInt.toNat, slot.stop.toInt.toNat⟩

theorem Slot.span?_eq (placed : slot.isPlaced = true) : slot.span? = some slot.span :=
  if_pos placed

/-- Two slots share no byte. -/
def Slot.Apart (left right : Slot) : Prop :=
  left.span.stop ≤ right.span.start ∨ right.span.stop ≤ left.span.start

theorem Slot.isPlaced_iff :
    slot.isPlaced = true ↔ 0 ≤ slot.start.toInt ∧ 0 ≤ slot.stop.toInt := by
  rw [isPlaced, Bool.and_eq_true, decide_eq_true_iff, decide_eq_true_iff, Int32.le_iff_toInt_le,
    Int32.le_iff_toInt_le]
  rfl

/-- A slot has no flaw just if its ends are in order and it has the size of its type, if there is one. -/
theorem Slot.flaw?_eq_none_iff (placed : slot.isPlaced = true) :
    slot.flaw? = none ↔ slot.span.start ≤ slot.span.stop ∧
      ∀ size, slot.type.size? = some size → slot.span.length = size := by
  obtain ⟨start, stop⟩ := Slot.isPlaced_iff.mp placed
  have zero : (0 : Int32).toInt = 0 := rfl
  have same : (slot.start < 0) = (slot.stop < 0) := by
    rw [Int32.lt_iff_toInt_lt, Int32.lt_iff_toInt_lt, zero, eq_iff_iff]
    exact iff_of_false (not_lt.mpr start) (not_lt.mpr stop)
  have reversed : slot.stop < slot.start ↔ ¬ slot.span.start ≤ slot.span.stop := by
    simp only [Int32.lt_iff_toInt_lt, span]
    omega
  have room : (slot.stop.toInt - slot.start.toInt).toNat = slot.span.length := by
    simp only [Span.length, span]
    omega
  rw [flaw?, if_neg (not_not_intro same), if_neg (by rw [placed]; decide)]
  simp only [reversed, room]
  by_cases ordered : slot.span.start ≤ slot.span.stop
  · rw [if_neg (not_not_intro ordered), and_iff_right ordered]
    cases slot.type.size? <;> simp
  · rw [if_pos ordered]
    exact iff_of_false (by simp) fun both => ordered both.1

end Slots

variable {column : Column} {layout : Layout}

/-- What holds of a column with its stages holds of the column alone. -/
theorem Column.validate_withoutStages (valid : column.validate = .ok ()) :
    column.withoutStages.validate = .ok () := by
  rw [validate, validateSlots] at valid
  cases flaw : column.toSlot.flaw? with
  | some flaw' => simp [flaw] at valid
  | none =>
      have same : column.withoutStages.toSlot.flaw? = none := flaw
      rw [validate, validateSlots, same]
      simp [withoutStages, validateSlots]

theorem Column.placed_of_validate (valid : column.validate = .ok ()) :
    Column.placed column.name column.type column.start column.stop = .ok column.withoutStages := by
  have alone := Column.validate_withoutStages valid
  have same : Column.placed column.name column.type column.start column.stop =
      column.withoutStages.validate.map fun _ => column.withoutStages := rfl
  rw [same, alone]
  rfl

namespace Layout

theorem stop_le_rowLength (mem : column ∈ layout) (placed : column.isPlaced = true) :
    column.span.stop ≤ layout.rowLength := by
  -- The maximum so far only grows, and passes each stop on the way.
  have grows (layout : Layout) (longest : Nat) : longest ≤ layout.foldl
      (fun longest column => max longest ((column.span?.map Span.stop).getD 0)) longest ∧
        ∀ column ∈ layout, (column.span?.map Span.stop).getD 0 ≤ layout.foldl
          (fun longest column => max longest ((column.span?.map Span.stop).getD 0)) longest := by
    induction layout generalizing longest with
    | nil => exact ⟨le_rfl, by simp⟩
    | cons first layout ih =>
        obtain ⟨longer, within⟩ := ih (max longest ((first.span?.map Span.stop).getD 0))
        exact ⟨le_trans (le_max_left _ _) longer,
          List.forall_mem_cons.mpr ⟨le_trans (le_max_right _ _) longer, within⟩⟩
  have within := (grows layout 0).2 column mem
  rwa [Slot.span?_eq placed] at within

theorem rowLength_le {bound : Nat} (inside : ∀ column ∈ layout, column.span.stop ≤ bound) :
    layout.rowLength ≤ bound := by
  have stops (column : Column) : (column.span?.map Span.stop).getD 0 ≤ column.span.stop := by
    rw [Slot.span?]
    split_ifs
    · exact le_rfl
    · exact Nat.zero_le _
  exact List.foldlRecOn layout _ (motive := (· ≤ bound)) (Nat.zero_le _)
    fun longest short column mem => max_le short ((stops column).trans (inside column mem))

end Layout

/-- A column as it was asked for by name, type and width. -/
structure Column.Serves (column : Column) (asked : String × ColumnType × Nat) : Prop where
  name : column.name = asked.1
  type : column.type = asked.2.1
  placed : column.isPlaced = true
  ordered : column.span.start ≤ column.span.stop
  room : column.span.length = asked.2.1.size?.getD asked.2.2

namespace Layout

variable {asked before after : List (String × ColumnType × Nat)}
  {request : String × ColumnType × Nat} {offset index : Nat}

/-- Bytes of a column that is asked for: the size of its type, or the given width. -/
def room (request : String × ColumnType × Nat) : Nat := request.2.1.size?.getD request.2.2

/-- Bytes of all columns that are asked for. -/
def extent (asked : List (String × ColumnType × Nat)) : Nat := (asked.map room).sum

theorem extent_cons (request : String × ColumnType × Nat) (asked) :
    extent (request :: asked) = room request + extent asked := by
  rw [extent, List.map_cons, List.sum_cons, extent]

theorem extent_append (before after) : extent (before ++ after) = extent before + extent after := by
  rw [extent, List.map_append, List.sum_append, extent, extent]

theorem extent_take_le (asked) (count : Nat) : extent (asked.take count) ≤ extent asked := by
  have whole := extent_append (asked.take count) (asked.drop count)
  rw [List.take_append_drop] at whole
  omega

theorem extent_take_mono {first second : Nat} (ordered : first ≤ second) :
    extent (asked.take first) ≤ extent (asked.take second) := by
  have part := extent_take_le (asked.take second) first
  rwa [List.take_take, min_eq_left ordered] at part

theorem extent_take_succ (found : asked[index]? = some request) :
    extent (asked.take (index + 1)) = extent (asked.take index) + room request := by
  rw [List.take_add_one, found, extent_append]
  rfl

section Tiles

/-- The column that is asked for, from an offset on. -/
def tile (request : String × ColumnType × Nat) (offset : Nat) : Column :=
  ⟨⟨request.1, request.2.1, Int32.ofNat offset, Int32.ofNat (offset + room request)⟩, []⟩

/-- The columns that are asked for, each from where the one before it ends. -/
def tiles (offset : Nat) : List (String × ColumnType × Nat) → Layout
  | [] => []
  | request :: asked => tile request offset :: tiles (offset + room request) asked

theorem isPlaced_tile (inside : offset + room request ≤ 2147483647) :
    (tile request offset).isPlaced = true ∧
      (tile request offset).span = ⟨offset, offset + room request⟩ := by
  have left : (Int32.ofNat offset).toInt = offset := Int32.toInt_ofNat_of_lt (by omega)
  have right : (Int32.ofNat (offset + room request)).toInt = (offset + room request : Nat) :=
    Int32.toInt_ofNat_of_lt (by omega)
  constructor
  · rw [Slot.isPlaced_iff, tile, left, right]
    exact ⟨Int.natCast_nonneg _, Int.natCast_nonneg _⟩
  · rw [Slot.span, tile, left, right, Int.toNat_natCast, Int.toNat_natCast]

theorem validate_tile (inside : offset + room request ≤ 2147483647) :
    (tile request offset).validate = .ok () := by
  obtain ⟨placed, span⟩ := isPlaced_tile inside
  have flawless : (tile request offset).toSlot.flaw? = none := by
    rw [Slot.flaw?_eq_none_iff placed, span]
    refine ⟨Nat.le_add_right _ _, fun size sized => ?_⟩
    have asked : request.2.1.size? = some size := sized
    rw [Span.length, Nat.add_sub_cancel_left, room, asked, Option.getD_some]
  rw [Column.validate, Column.validateSlots, flawless]
  dsimp only
  rw [if_pos placed, tile, Column.validateSlots]

theorem length_tiles (offset : Nat) (asked) : (tiles offset asked).length = asked.length := by
  induction asked generalizing offset with
  | nil => rfl
  | cons request asked ih => rw [tiles, List.length_cons, List.length_cons, ih]

theorem getElem?_tiles (offset : Nat) (asked) (index : Nat) :
    (tiles offset asked)[index]? =
      asked[index]?.map fun request => tile request (offset + extent (asked.take index)) := by
  induction asked generalizing offset index with
  | nil => rfl
  | cons request asked ih =>
      cases index with
      | zero => rfl
      | succ index =>
          rw [tiles, List.getElem?_cons_succ, List.getElem?_cons_succ, ih, List.take_succ_cons,
            extent_cons, Nat.add_assoc]

end Tiles

section Placing

theorem placeFrom_cons (inside : offset + room request ≤ 2147483647) (asked) :
    placeFrom offset (request :: asked) =
      (placeFrom (offset + room request) asked).map (tile request offset :: ·) := by
  have placed : Column.placed request.1 request.2.1 (Int32.ofNat offset)
      (Int32.ofNat (offset + room request)) = .ok (tile request offset) := by
    have valid := validate_tile inside
    rw [tile] at valid
    rw [Column.placed, valid, tile]
    rfl
  rw [room] at placed inside ⊢
  rw [placeFrom, if_pos inside, placed]
  cases placeFrom (offset + request.2.1.size?.getD request.2.2) asked <;> rfl

theorem placeFrom_cons_beyond (beyond : 2147483647 < offset + room request) (asked) :
    placeFrom offset (request :: asked) = .error (.invalidDescriptor request.1 .layoutTooLong) :=
  if_neg (not_le.mpr beyond)

/-- Where columns are placed depends on their widths only through the bytes that they take. -/
theorem placeFrom_congr {other : List (String × ColumnType × Nat)} (offset : Nat)
    (alike : List.Forall₂ (fun left right => left.1 = right.1 ∧ left.2.1 = right.2.1 ∧
      room left = room right) asked other) :
    placeFrom offset asked = placeFrom offset other := by
  induction alike generalizing offset with
  | nil => rfl
  | @cons left right asked other same alike ih =>
      obtain ⟨name, type, bytes⟩ := same
      have tile : tile left offset = tile right offset := by
        rw [Layout.tile, Layout.tile, name, type, bytes]
      rcases le_or_gt (offset + room left) 2147483647 with inside | beyond
      · rw [placeFrom_cons inside, placeFrom_cons (bytes ▸ inside), ih, bytes, tile]
      · rw [placeFrom_cons_beyond beyond, placeFrom_cons_beyond (bytes ▸ beyond), name]

/-- Columns that end in range are all placed. -/
theorem placeFrom_of_fits (fits : offset + extent asked ≤ 2147483647) :
    placeFrom offset asked = .ok (tiles offset asked) := by
  induction asked generalizing offset with
  | nil => rfl
  | cons request asked ih =>
      rw [extent_cons] at fits
      rw [placeFrom_cons (by omega), ih (by omega)]
      rfl

/-- The first column that ends out of range is refused. -/
theorem placeFrom_of_beyond (fits : offset + extent before ≤ 2147483647)
    (beyond : 2147483647 < offset + extent before + room request) (after) :
    placeFrom offset (before ++ request :: after) =
      .error (.invalidDescriptor request.1 .layoutTooLong) := by
  induction before generalizing offset with
  | nil => exact placeFrom_cons_beyond beyond after
  | cons first before ih =>
      rw [extent_cons] at fits beyond
      rw [List.cons_append, placeFrom_cons (by omega), ih (by omega) (by omega)]
      rfl

theorem exists_beyond (start : offset ≤ 2147483647) (long : 2147483647 < offset + extent asked) :
    ∃ before request after, asked = before ++ request :: after ∧
      offset + extent before ≤ 2147483647 ∧
        2147483647 < offset + extent before + room request := by
  induction asked generalizing offset with
  | nil => exact absurd start (not_le.mpr long)
  | cons first asked ih =>
      rcases le_or_gt (offset + room first) 2147483647 with inside | beyond
      · rw [extent_cons, ← Nat.add_assoc] at long
        obtain ⟨before, request, after, rfl, fits, beyond⟩ := ih inside long
        refine ⟨first :: before, request, after, rfl, ?_, ?_⟩ <;> rw [extent_cons] <;> omega
      · exact ⟨[], first, asked, rfl, start, beyond⟩

theorem place_eq_ok_iff :
    place asked = .ok layout ↔ extent asked ≤ 2147483647 ∧ layout = tiles 0 asked := by
  rcases le_or_gt (extent asked) 2147483647 with fits | long
  · have placed : place asked = .ok (tiles 0 asked) := placeFrom_of_fits (by rwa [Nat.zero_add])
    rw [placed, and_iff_right fits, Except.ok.injEq, eq_comm]
  · obtain ⟨before, request, after, rfl, fits, beyond⟩ :=
      exists_beyond (Nat.zero_le _) (by rwa [Nat.zero_add])
    rw [place, placeFrom_of_beyond fits beyond]
    exact iff_of_false (by simp) fun both => absurd both.1 (not_le.mpr long)

theorem place_eq_error_iff {reason : Error} :
    place asked = .error reason ↔ ∃ before request after, asked = before ++ request :: after ∧
      extent before ≤ 2147483647 ∧ 2147483647 < extent before + room request ∧
        reason = .invalidDescriptor request.1 .layoutTooLong := by
  constructor
  · intro refused
    have long : 2147483647 < 0 + extent asked := by
      by_contra fits
      rw [not_lt, Nat.zero_add] at fits
      cases refused.symm.trans (place_eq_ok_iff.mpr ⟨fits, rfl⟩)
    obtain ⟨before, request, after, rfl, fits, beyond⟩ := exists_beyond (Nat.zero_le _) long
    rw [place, placeFrom_of_beyond fits beyond] at refused
    rw [Nat.zero_add] at fits beyond
    exact ⟨before, request, after, rfl, fits, beyond, (Except.error.inj refused).symm⟩
  · rintro ⟨before, request, after, rfl, fits, beyond, rfl⟩
    exact placeFrom_of_beyond (by rwa [Nat.zero_add]) (by rwa [Nat.zero_add]) after

end Placing

section Placed

variable (placed : place asked = .ok layout)
include placed

/-- The columns of a layout are the tiles of what was asked for. -/
theorem exists_tile (found : layout[index]? = some column) :
    ∃ request, asked[index]? = some request ∧ column = tile request (extent (asked.take index)) ∧
      extent (asked.take index) + room request ≤ 2147483647 := by
  obtain ⟨fits, rfl⟩ := place_eq_ok_iff.mp placed
  rw [getElem?_tiles, Option.map_eq_some_iff] at found
  obtain ⟨request, requested, same⟩ := found
  refine ⟨request, requested, by rw [← same, Nat.zero_add], ?_⟩
  rw [← extent_take_succ requested]
  exact (extent_take_le asked _).trans fits

theorem serves_of_place (found : layout[index]? = some column) :
    ∃ request, asked[index]? = some request ∧ column.Serves request := by
  obtain ⟨request, requested, rfl, inside⟩ := exists_tile placed found
  obtain ⟨positioned, span⟩ := isPlaced_tile inside
  refine ⟨request, requested, rfl, rfl, positioned, ?_, ?_⟩ <;> rw [span]
  · exact Nat.le_add_right _ _
  · exact Nat.add_sub_cancel_left _ _

theorem length_of_place : layout.length = asked.length := by
  obtain ⟨-, rfl⟩ := place_eq_ok_iff.mp placed
  exact length_tiles 0 asked

theorem apart_of_place : layout.Pairwise fun left right => left.Apart right.toSlot := by
  rw [List.pairwise_iff_getElem]
  intro first second inFirst inSecond ordered
  obtain ⟨request, requested, left, inside⟩ := exists_tile placed (List.getElem?_eq_getElem inFirst)
  obtain ⟨other, -, right, within⟩ := exists_tile placed (List.getElem?_eq_getElem inSecond)
  have between : extent (asked.take (first + 1)) ≤ extent (asked.take second) :=
    extent_take_mono ordered
  rw [extent_take_succ requested] at between
  rw [left, right, Slot.Apart, (isPlaced_tile inside).2, (isPlaced_tile within).2]
  exact .inl between

end Placed

end Layout

end RowStore
