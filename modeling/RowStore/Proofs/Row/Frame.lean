import Mathlib
import RowStore.Environment
import RowStore.Proofs.Row.Sentinel
import RowStore.Proofs.Value.Targets

/-! What writing a row changes.

Whether a value has a place in its slot does not depend on the buffer. So a row is written up to the
first value that has none, bytes outside of all slots never change, and in slots that share no byte
each value is found just as it was laid.
-/

namespace RowStore.Row

variable {order : ByteOrder} {value : Value} {column : Column} {buffer written data encoded : Bytes}
  {cells : List (Value × Column)} {reason : Error}

section Rows

variable [Host] [CalendarText]

/-- Writing stops where a value has no place, which shows before anything is written. -/
theorem fst_writeCells (order : ByteOrder)
    (stands : ∀ cell ∈ cells, Stands buffer.length cell.2) :
    (writeCells order buffer cells).1 =
      cells.forM fun cell => (overlay order cell.1 cell.2).map fun _ => () := by
  induction cells generalizing buffer with
  | nil => rfl
  | cons cell cells ih =>
      obtain ⟨value, column⟩ := cell
      obtain ⟨here, later⟩ := List.forall_mem_cons.mp stands
      rw [writeCells, here.writeCell_eq, Outcome.forM_cons]
      cases laid : overlay order value column with
      | error reason => rfl
      | ok data =>
          have kept := here.length_overwrite laid
          exact ih (kept ▸ later)

theorem writeCells_eq_ok_iff (stands : ∀ cell ∈ cells, Stands buffer.length cell.2) :
    (writeCells order buffer cells).1 = .ok () ↔
      ∀ cell ∈ cells, ∃ data, overlay order cell.1 cell.2 = .ok data := by
  rw [fst_writeCells order stands, Outcome.forM_eq_ok_iff]
  simp [Outcome.map_eq_ok_iff]

/-- The first cell that is refused gives the reason. -/
theorem writeCells_eq_error_iff (stands : ∀ cell ∈ cells, Stands buffer.length cell.2) :
    (writeCells order buffer cells).1 = .error reason ↔
      ∃ before cell after, cells = before ++ cell :: after ∧
        (∀ earlier ∈ before, ∃ data, overlay order earlier.1 earlier.2 = .ok data) ∧
        overlay order cell.1 cell.2 = .error reason := by
  rw [fst_writeCells order stands, Outcome.forM_eq_error_iff]
  simp [Outcome.map_eq_ok_iff, Outcome.map_eq_error_iff]

/-- In slots that share no byte, each cell is found as it was laid over its slot. -/
theorem writeCells_overlays (stands : ∀ cell ∈ cells, Stands buffer.length cell.2)
    (disjoint : cells.Pairwise fun left right => left.2.Disjoint right.2.toSlot)
    (wrote : writeCells order buffer cells = (.ok (), written)) :
    ∀ cell ∈ cells, ∃ data, overlay order cell.1 cell.2 = .ok data ∧
      ∀ offset, Covers cell.2 offset →
        written[offset]? =
          if offset < cell.2.span.start + data.length then data[offset - cell.2.span.start]?
          else buffer[offset]? := by
  induction cells generalizing buffer with
  | nil => simp
  | cons cell cells ih =>
      obtain ⟨value, column⟩ := cell
      obtain ⟨here, later⟩ := List.forall_mem_cons.mp stands
      obtain ⟨first, others⟩ := List.pairwise_cons.mp disjoint
      rw [writeCells, here.writeCell_eq] at wrote
      cases laid : overlay order value column with
      | error reason => simp [laid, Except.map] at wrote
      | ok data =>
          simp only [laid, Except.map] at wrote
          have kept := here.length_overwrite laid
          refine List.forall_mem_cons.mpr ⟨⟨data, laid, fun offset covered => ?_⟩, ?_⟩
          · -- The cells to come have no byte of this slot.
            have frame := getElem?_writeCells order (kept ▸ later)
              fun cell mem => first cell mem offset covered.1 covered.2
            rw [wrote] at frame
            simp only [frame, here.getElem?_overwrite laid, covered.1, true_and]
          · intro cell mem
            obtain ⟨data', laid', found⟩ := ih (kept ▸ later) others wrote cell mem
            refine ⟨data', laid', fun offset covered => ?_⟩
            have before : ¬ Covers column offset := fun inside =>
              first cell mem offset inside.1 inside.2 covered
            rw [found offset covered, here.outside laid before]

end Rows

section Outcomes

variable {name : String} {needed room : Nat}

/-- A byte of a slot after a value of so many bytes was laid over it. -/
theorem getElem?_terminated (type : ColumnType) {index : Nat} (inside : index < room)
    (old : Option UInt8) :
    (if index < (terminated type encoded room).length then (terminated type encoded room)[index]?
      else old) =
      if index < encoded.length then encoded[index]?
      else if index = encoded.length ∧ type.size? = none then some 0
      else old := by
  by_cases ended : type.size? = none ∧ encoded.length < room
  · rw [terminated, if_pos ended]
    rcases lt_trichotomy index encoded.length with stored | last | behind
    · simp [stored, Nat.lt_succ_of_lt stored]
    · simp [last, ended.1]
    · have past : ¬ index < (encoded ++ [0]).length := by simp; omega
      rw [if_neg past, if_neg behind.not_gt, if_neg (by omega)]
  · rw [terminated, if_neg ended]
    by_cases stored : index < encoded.length
    · simp [stored]
    · have silent : ¬ (index = encoded.length ∧ type.size? = none) := fun last =>
        ended ⟨last.2, last.1 ▸ inside⟩
      simp [stored, silent]

variable [Host] [CalendarText]

/-- A value has no place in a slot: it cannot be converted or stored, or it takes more bytes than the
slot has. -/
def Fails (order : ByteOrder) (value : Value) (column : Column) : Prop :=
  value ≠ .nothing ∧
    ∀ encoded, encodeCell order value column = .ok encoded → column.span.length < encoded.length

theorem not_fails_iff : ¬ Fails order value column ↔ ∃ data, overlay order value column = .ok data := by
  by_cases void : value = .nothing
  · subst void
    simp [Fails, overlay_nothing]
  cases encodes : encodeCell order value column with
  | error reason => simp [Fails, void, encodes, overlay_refused void encodes]
  | ok encoded =>
      rw [overlay_encoded void encodes]
      by_cases long : column.span.length < encoded.length <;> simp [Fails, void, encodes, long]

/-- Neither converting nor storing a value is refused for its length. -/
theorem encodeCell_ne_slotOverflow :
    encodeCell order value column ≠ .error (.slotOverflow name needed room) := by
  intro refused
  rcases Outcome.bind_eq_error_iff.mp refused with converting | ⟨converted, -, storing⟩
  · cases Value.refuses_convert _ _ _ converting
  · cases ColumnType.refuses_encode _ _ _ _ storing

theorem overlay_eq_slotOverflow_iff :
    overlay order value column = .error (.slotOverflow name needed room) ↔
      value ≠ .nothing ∧ ∃ encoded, encodeCell order value column = .ok encoded ∧
        column.span.length < encoded.length ∧
        name = column.name ∧ needed = encoded.length ∧ room = column.span.length := by
  by_cases void : value = .nothing
  · subst void
    simp [overlay_nothing]
  cases encodes : encodeCell order value column with
  | error reason =>
      rw [overlay_refused void encodes]
      have other : reason ≠ .slotOverflow name needed room := by
        rintro rfl
        exact encodeCell_ne_slotOverflow encodes
      simp [other]
  | ok encoded =>
      rw [overlay_encoded void encodes]
      by_cases long : column.span.length < encoded.length
      · simp [void, long, eq_comm]
      · simp [long]

/-- What the slot of a column holds when a value was written over the bytes before: zeros for nothing,
and else the stored form, a zero behind it if there is room and the type has no size, and what was
there. -/
def Overlaid (order : ByteOrder) (value : Value) (column : Column) (before after : Bytes) : Prop :=
  if value = .nothing then
    ∀ index < column.span.length, after[column.span.start + index]? = some 0
  else ∃ encoded, encodeCell order value column = .ok encoded ∧
    encoded.length ≤ column.span.length ∧
    ∀ index < column.span.length, after[column.span.start + index]? =
      if index < encoded.length then encoded[index]?
      else if index = encoded.length ∧ column.type.size? = none then some 0
      else before[column.span.start + index]?

theorem overlaid_of_overlay (laid : overlay order value column = .ok data)
    (found : ∀ index < column.span.length, written[column.span.start + index]? =
      if index < data.length then data[index]? else buffer[column.span.start + index]?) :
    Overlaid order value column buffer written := by
  by_cases void : value = .nothing
  · subst void
    cases (overlay_nothing order column).symm.trans laid
    rw [Overlaid, if_pos rfl]
    intro index inside
    simp [found index inside, inside]
  · rw [Overlaid, if_neg void]
    cases encodes : encodeCell order value column with
    | error reason => simp [overlay_refused void encodes] at laid
    | ok encoded =>
        rw [overlay_encoded void encodes] at laid
        split at laid
        · cases laid
        · rename_i fits
          cases laid
          refine ⟨encoded, rfl, not_lt.mp fits, fun index inside => ?_⟩
          rw [found index inside, getElem?_terminated column.type inside]

end Outcomes

section Whole

variable {layout : Layout} {values : List Value}

theorem stands_of_valid (valid : ∀ column ∈ layout, column.validate = .ok ())
    (placed : ∀ column ∈ layout, column.isPlaced = true) (long : layout.rowLength ≤ buffer.length) :
    ∀ cell ∈ values.zip layout, Stands buffer.length cell.2 := by
  intro cell mem
  have inLayout := (List.of_mem_zip mem).2
  have ordered := (Column.span_of_validate (valid _ inLayout) (placed _ inLayout)).1
  have inside := Layout.stop_le_rowLength inLayout (placed _ inLayout)
  exact ⟨placed _ inLayout, ordered, inside.trans long⟩

variable [Host] [CalendarText]

theorem getElem?_write (valid : ∀ column ∈ layout, column.validate = .ok ())
    (placed : ∀ column ∈ layout, column.isPlaced = true) {offset : Nat}
    (outside : ∀ column ∈ layout, ¬ Covers column offset) :
    (write order values layout buffer).2[offset]? = buffer[offset]? := by
  rw [write]
  split
  · rfl
  · split
    · rfl
    · rename_i long
      exact getElem?_writeCells order (stands_of_valid valid placed (not_lt.mp long)) fun cell mem =>
        outside cell.2 (List.of_mem_zip mem).2

theorem write_eq_ok (wrote : write order values layout buffer = (.ok (), written)) :
    values.length = layout.length ∧ layout.rowLength ≤ buffer.length ∧
      writeCells order buffer (values.zip layout) = (.ok (), written) := by
  rw [write] at wrote
  split at wrote
  · cases wrote
  · rename_i counted
    split at wrote
    · cases wrote
    · rename_i long
      exact ⟨not_not.mp counted, not_lt.mp long, wrote⟩

theorem overlaid_of_write (valid : ∀ column ∈ layout, column.validate = .ok ())
    (placed : ∀ column ∈ layout, column.isPlaced = true)
    (disjoint : layout.Pairwise fun left right => left.Disjoint right.toSlot)
    (wrote : write order values layout buffer = (.ok (), written)) :
    ∀ cell ∈ values.zip layout, Overlaid order cell.1 cell.2 buffer written := by
  intro cell mem
  obtain ⟨counted, long, wrote⟩ := write_eq_ok wrote
  have stands : ∀ cell ∈ values.zip layout, Stands buffer.length cell.2 :=
    stands_of_valid valid placed long
  have columns : (values.zip layout).map Prod.snd = layout := List.map_snd_zip counted.ge
  rw [← columns, List.pairwise_map] at disjoint
  obtain ⟨data, laid, found⟩ := writeCells_overlays stands disjoint wrote cell mem
  refine overlaid_of_overlay laid fun index inside => ?_
  have ordered := (stands cell mem).ordered
  rw [Span.length] at inside
  rw [found _ ⟨by omega, by omega⟩, Nat.add_sub_cancel_left]
  simp

end Whole

/-- Writing a row changes no byte outside its slots, whatever comes of it. In slots that share no byte
each value of a row that was written is found in its stored form, before a zero where one is needed and
what the buffer held there. A row whose values are counted right, in a buffer that is long enough, is
written if none of them fails, and the overflow of a slot is reported just if the first one that fails
can be converted and stored, but in more bytes than its slot has. -/
theorem write_overlays [Host] [CalendarText] {layout : Layout} (order : ByteOrder)
    (values : List Value) (buffer : Bytes)
    (valid : ∀ column ∈ layout, column.validate = .ok ())
    (placed : ∀ column ∈ layout, column.isPlaced = true) :
    (∀ offset, (∀ column ∈ layout, ¬ Covers column offset) →
        (write order values layout buffer).2[offset]? = buffer[offset]?) ∧
      (layout.Pairwise (fun left right => left.Disjoint right.toSlot) → ∀ written,
        write order values layout buffer = (.ok (), written) →
          ∀ cell ∈ values.zip layout, Overlaid order cell.1 cell.2 buffer written) ∧
      (values.length = layout.length → layout.rowLength ≤ buffer.length →
        ((write order values layout buffer).1 = .ok () ↔
          ∀ cell ∈ values.zip layout, ¬ Fails order cell.1 cell.2) ∧
        ∀ name needed room,
          (write order values layout buffer).1 = .error (.slotOverflow name needed room) ↔
            ∃ before value column after, values.zip layout = before ++ (value, column) :: after ∧
              (∀ cell ∈ before, ¬ Fails order cell.1 cell.2) ∧ value ≠ .nothing ∧
              ∃ encoded, encodeCell order value column = .ok encoded ∧
                column.span.length < encoded.length ∧
                name = column.name ∧ needed = encoded.length ∧ room = column.span.length) := by
  refine ⟨fun offset outside => getElem?_write valid placed outside,
    fun disjoint written wrote => overlaid_of_write valid placed disjoint wrote,
    fun counted long => ?_⟩
  have stands : ∀ cell ∈ values.zip layout, Stands buffer.length cell.2 :=
    stands_of_valid valid placed long
  rw [write, if_neg (not_not.mpr counted), if_neg (not_lt.mpr long)]
  simp only [not_fails_iff, writeCells_eq_ok_iff stands, writeCells_eq_error_iff stands,
    overlay_eq_slotOverflow_iff, Prod.exists, true_and, implies_true]

/-- A number and a text in a buffer that is longer than the row and holds other bytes. -/
theorem write_overlays_long_buffer :
    let layout : Layout := [⟨⟨"n", .integer .uint8, 0, 1⟩, []⟩, ⟨⟨"s", .string, 1, 5⟩, []⟩]
    let buffer : Bytes := [9, 9, 9, 9, 9, 9]
    (∀ text, (write .little [.string "7", .string text] layout buffer).2[5]? = some 9) ∧
      write .little [.string "7", .string "x"] layout buffer = (.ok (), [7, 120, 0, 9, 9, 9]) ∧
      Overlaid .little (.string "x") ⟨⟨"s", .string, 1, 5⟩, []⟩ buffer [7, 120, 0, 9, 9, 9] ∧
      (write .little [.string "7", .string "xyzzy"] layout buffer).1 =
        .error (.slotOverflow "s" 5 4) := by
  intro layout buffer
  have valid : ∀ column ∈ layout, column.validate = .ok () := by decide +kernel
  have placed : ∀ column ∈ layout, column.isPlaced = true := by decide
  have disjoint : layout.Pairwise fun left right => left.Disjoint right.toSlot := by
    refine List.pairwise_pair.mpr fun offset _ before inside => ?_
    have first : offset < 1 := before
    have second : 1 ≤ offset := inside.1
    omega
  have wrote : write .little [.string "7", .string "x"] layout buffer =
      (.ok (), [7, 120, 0, 9, 9, 9]) := by decide +kernel
  have outside : ∀ column ∈ layout, ¬ Covers column 5 := by
    intro column mem covered
    have inside := covered.2.trans_le (Layout.stop_le_rowLength mem (placed column mem))
    exact absurd inside (by decide)
  have stored : ¬ Fails .little (.string "7") ⟨⟨"n", .integer .uint8, 0, 1⟩, []⟩ := by
    rw [not_fails_iff]
    exact ⟨[7], by decide +kernel⟩
  refine ⟨fun text => ?_, wrote, ?_, ?_⟩
  · exact (write_overlays .little [.string "7", .string text] buffer valid placed).1 5 outside
  · exact (write_overlays .little _ buffer valid placed).2.1 disjoint _ wrote
      (.string "x", _) (by decide)
  · refine ((write_overlays .little _ buffer valid placed).2.2 rfl (by decide)).2 _ _ _ |>.mpr ?_
    exact ⟨[_], .string "xyzzy", _, [], rfl, by simpa using stored, by simp, [120, 121, 122, 122, 121],
      by decide +kernel, by decide, rfl, by decide, by decide⟩

end RowStore.Row
