import Mathlib
import RowStore.Proofs.Row.Buffer

/-! Values laid over their slots.

A value is laid over the start of its slot, and what is laid there does not depend on the buffer. What
stands outside the slot, before it and behind it, is as it was.
-/

namespace RowStore.Row

variable {order : ByteOrder} {value : Value} {column : Column} {buffer data encoded : Bytes}
  {cells : List (Value × Column)} {reason : Error}

theorem length_terminated_le (type : ColumnType) {room : Nat} (inside : encoded.length ≤ room) :
    (terminated type encoded room).length ≤ room := by
  obtain ⟨zeros, enough, same⟩ := terminated_eq type inside
  rw [same, List.length_append, List.length_replicate]
  exact enough

/-- The offset is one of a byte of the column. -/
def Covers (column : Column) (offset : Nat) : Prop :=
  column.span.start ≤ offset ∧ offset < column.span.stop

/-- The slot of a column is inside a buffer of some length. -/
structure Stands (length : Nat) (column : Column) : Prop where
  placed : column.isPlaced = true
  ordered : column.span.start ≤ column.span.stop
  inside : column.span.stop ≤ length

theorem Stands.fits {length : Nat} (stands : Stands length column)
    (room : data.length ≤ column.span.length) :
    column.span.start + data.length ≤ column.span.stop := by
  have ordered := stands.ordered
  rw [Span.length] at room
  omega

variable [Host] [CalendarText]

/-- The bytes that a value lays over the start of its slot. -/
def overlay (order : ByteOrder) (value : Value) (column : Column) : Except Error Bytes :=
  if value = .nothing then .ok (List.replicate column.span.length 0)
  else do
    let encoded ← encodeCell order value column
    if column.span.length < encoded.length then
      .error (.slotOverflow column.name encoded.length column.span.length)
    else .ok (terminated column.type encoded column.span.length)

theorem overlay_nothing (order : ByteOrder) (column : Column) :
    overlay order .nothing column = .ok (List.replicate column.span.length 0) := if_pos rfl

theorem overlay_encoded (something : value ≠ .nothing)
    (encodes : encodeCell order value column = .ok encoded) :
    overlay order value column =
      if column.span.length < encoded.length then
        .error (.slotOverflow column.name encoded.length column.span.length)
      else .ok (terminated column.type encoded column.span.length) := by
  rw [overlay, if_neg something, encodes]
  rfl

theorem overlay_refused (something : value ≠ .nothing)
    (refused : encodeCell order value column = .error reason) :
    overlay order value column = .error reason := by
  rw [overlay, if_neg something, refused]
  rfl

theorem length_overlay_le (laid : overlay order value column = .ok data) :
    data.length ≤ column.span.length := by
  by_cases void : value = .nothing
  · subst void
    cases (overlay_nothing order column).symm.trans laid
    simp
  · rw [overlay, if_neg void] at laid
    obtain ⟨encoded, -, fitted⟩ := Outcome.bind_eq_ok_iff.mp laid
    split at fitted
    · cases fitted
    · rename_i room
      cases fitted
      exact length_terminated_le column.type (not_lt.mp room)

/-- Whether a cell is written, and what is written, is decided without the buffer. -/
theorem Stands.writeCell_eq (stands : Stands buffer.length column) (order : ByteOrder)
    (value : Value) :
    writeCell order value column buffer =
      (overlay order value column).map (buffer.overwrite column.span.start) := by
  have fits {data : Bytes} (room : data.length ≤ column.span.length) :
      put buffer column.span.start data = .ok (buffer.overwrite column.span.start data) :=
    if_pos ((stands.fits room).trans stands.inside)
  rw [writeCell, Slot.span?_eq stands.placed]
  simp only
  by_cases void : value = .nothing
  · rw [if_pos void, if_neg (not_lt.mpr stands.ordered), void, overlay_nothing, fits (by simp)]
    rfl
  · rw [if_neg void, overlay, if_neg void]
    cases encodeCell order value column with
    | error reason => rfl
    | ok encoded =>
        simp only [bind, Except.bind]
        split
        · rfl
        · rename_i room
          rw [fits (length_terminated_le column.type (not_lt.mp room))]
          rfl

theorem Stands.getElem?_overwrite (stands : Stands buffer.length column)
    (laid : overlay order value column = .ok data) (offset : Nat) :
    (buffer.overwrite column.span.start data)[offset]? =
      if column.span.start ≤ offset ∧ offset < column.span.start + data.length then
        data[offset - column.span.start]?
      else buffer[offset]? :=
  Bytes.getElem?_overwrite ((stands.fits (length_overlay_le laid)).trans stands.inside) offset

/-- A byte outside the slot is as it was. -/
theorem Stands.outside (stands : Stands buffer.length column)
    (laid : overlay order value column = .ok data) {offset : Nat} (outside : ¬ Covers column offset) :
    (buffer.overwrite column.span.start data)[offset]? = buffer[offset]? := by
  have ends := stands.fits (length_overlay_le laid)
  rw [Covers] at outside
  rw [stands.getElem?_overwrite laid, if_neg (by omega)]

theorem Stands.length_overwrite (stands : Stands buffer.length column)
    (laid : overlay order value column = .ok data) :
    (buffer.overwrite column.span.start data).length = buffer.length :=
  Bytes.length_overwrite ((stands.fits (length_overlay_le laid)).trans stands.inside)

/-- No byte outside all slots changes, also where the writing stops halfway. -/
theorem getElem?_writeCells (order : ByteOrder)
    (stands : ∀ cell ∈ cells, Stands buffer.length cell.2) {offset : Nat}
    (outside : ∀ cell ∈ cells, ¬ Covers cell.2 offset) :
    (writeCells order buffer cells).2[offset]? = buffer[offset]? := by
  induction cells generalizing buffer with
  | nil => rfl
  | cons cell cells ih =>
      obtain ⟨value, column⟩ := cell
      obtain ⟨here, later⟩ := List.forall_mem_cons.mp stands
      obtain ⟨outsideHere, outsideLater⟩ := List.forall_mem_cons.mp outside
      rw [writeCells, here.writeCell_eq]
      cases laid : overlay order value column with
      | error reason => rfl
      | ok data =>
          have kept := here.length_overwrite laid
          exact (ih (kept ▸ later) outsideLater).trans (here.outside laid outsideHere)

end RowStore.Row
