import Mathlib
import RowStore.Proofs.Bytes.Parts
import RowStore.Proofs.Row.Layout
import RowStore.Row.Buffer

/-! Rows are read back from the buffer that they were written to.

Writing a cell changes its slot and nothing else. So where slots do not overlap, every cell can be
read from the finished row as it could be right after it was written.
-/

namespace RowStore

/-- The bytes of a row that can be encoded, in a zeroed buffer of its own. -/
def Row.image? [Host] [CalendarText] (layout : Layout) (values : List Value) : Option Bytes :=
  match Row.write .native values layout (List.replicate layout.rowLength 0) with
  | (.ok (), row) => some row
  | (.error _, _) => none

namespace Row

section Length

theorem length_put {buffer data written : Bytes} {offset : Nat}
    (put : put buffer offset data = .ok written) : written.length = buffer.length := by
  rw [Row.put] at put
  split at put
  · rename_i inside
    cases put
    exact Bytes.length_overwrite inside
  · contradiction

variable [Host] [CalendarText]

theorem length_writeCell {order : ByteOrder} {value : Value} {column : Column}
    {buffer written : Bytes} (wrote : writeCell order value column buffer = .ok written) :
    written.length = buffer.length := by
  rw [writeCell] at wrote
  split at wrote
  · contradiction
  · split at wrote
    · split at wrote
      · contradiction
      · exact length_put wrote
    · obtain ⟨encoded, -, fitted⟩ := Outcome.bind_eq_ok_iff.mp wrote
      split at fitted
      · contradiction
      · exact length_put fitted

/-- Writing never changes how long a buffer is, not even where it is refused. -/
theorem length_writeCells (order : ByteOrder) (buffer : Bytes)
    (cells : List (Value × Column)) :
    (writeCells order buffer cells).2.length = buffer.length := by
  induction cells generalizing buffer with
  | nil => rfl
  | cons cell cells ih =>
      obtain ⟨value, column⟩ := cell
      rw [writeCells]
      cases wrote : writeCell order value column buffer with
      | error reason => rfl
      | ok written => exact (ih written).trans (length_writeCell wrote)

theorem length_write (order : ByteOrder) (values : List Value)
    (layout : Layout) (buffer : Bytes) :
    (write order values layout buffer).2.length = buffer.length := by
  rw [write]
  split
  · rfl
  · split
    · rfl
    · exact length_writeCells order buffer _

theorem length_of_image? {layout : Layout} {values : List Value} {row : Bytes}
    (encoded : image? layout values = some row) : row.length = layout.rowLength := by
  have kept := length_write .native values layout (List.replicate layout.rowLength 0)
  rw [image?] at encoded
  split at encoded
  · rename_i same
    cases encoded
    simpa [same] using kept
  · contradiction

end Length

theorem read_withoutStages (order : ByteOrder) (buffer : Bytes) (layout : Layout) :
    read order buffer (layout.map Column.withoutStages) = read order buffer layout := by
  rw [read, List.mapM_map]
  rfl

section RoundTrip

variable {order : ByteOrder} {value : Value} {column : Column} {buffer encoded : Bytes}

/-- The slot of a column is inside a buffer and all zero. -/
def Blank (buffer : Bytes) (column : Column) : Prop :=
  buffer.slice? column.span.start column.span.stop =
    some (List.replicate column.span.length 0)

theorem terminated_eq (type : ColumnType) {room : Nat} (inside : encoded.length ≤ room) :
    ∃ zeros, encoded.length + zeros ≤ room ∧
      terminated type encoded room = encoded ++ List.replicate zeros 0 := by
  rw [terminated]
  split
  · rename_i short
    exact ⟨1, short.2, rfl⟩
  · exact ⟨0, inside, by simp⟩

/-- Bytes apart from a slot: all before it, or all behind it. -/
def Beside (start stop : Nat) (column : Column) : Prop :=
  stop ≤ column.span.start ∨ column.span.stop ≤ start

/-- What is put into a blank slot stays there before zeros, and nothing else changes. -/
theorem put_blank (blank : Blank buffer column) {zeros : Nat}
    (room : encoded.length + zeros ≤ column.span.length) :
    ∃ written, put buffer column.span.start (encoded ++ List.replicate zeros 0) = .ok written ∧
      written.slice? column.span.start column.span.stop =
        some (encoded ++ List.replicate (column.span.length - encoded.length) 0) ∧
      ∀ start stop, Beside start stop column →
        written.slice? start stop = buffer.slice? start stop := by
  rw [Span.length] at room
  obtain ⟨ordered, inside, -⟩ := Bytes.length_slice? blank
  have length : (encoded ++ List.replicate zeros (0 : UInt8)).length = encoded.length + zeros := by
    simp
  have fits : column.span.start + (encoded ++ List.replicate zeros 0).length ≤ buffer.length := by
    omega
  refine ⟨_, if_pos fits, ?_, fun start stop beside => ?_⟩
  · rw [Bytes.slice?_overwrite_blank blank (by omega), length, List.append_assoc,
      List.replicate_append_replicate, Span.length]
    congr 3
    omega
  · refine Bytes.slice?_overwrite_of_apart fits ?_
    rw [Beside] at beside
    omega

theorem readCell_congr {other : Bytes} (length : other.length = buffer.length)
    (same : other.slice? column.span.start column.span.stop =
      buffer.slice? column.span.start column.span.stop) :
    readCell order other column = readCell order buffer column := by
  rw [readCell, readCell]
  by_cases placed : column.isPlaced = true
  · simp only [Slot.span?_eq placed, same, length]
  · simp only [Slot.span?, placed, Bool.false_eq_true, if_false]

variable [Host] [CalendarText]

/-- A value that the slot of a column holds without loss: its stored form has room, is decoded as
the value, and has no zero byte at which reading would stop. -/
structure Holds (order : ByteOrder) (value : Value) (column : Column)
    (encoded : Bytes) : Prop where
  placed : column.isPlaced = true
  encodes : encodeCell order value column = .ok encoded
  room : encoded.length ≤ column.span.length
  full : ∀ size, column.type.size? = some size → encoded.length = column.span.length
  solid : column.type.size? = none → 0 ∉ encoded
  void : value = .nothing → encoded = []
  decodes : column.type.decode order encoded = .ok value

theorem encodeCell_eq (order : ByteOrder) (typed : value.type = column.type) :
    encodeCell order value column = column.type.encode order value := by
  have converted : value.convert column.type = .ok value := if_pos typed
  rw [encodeCell, converted]
  rfl

theorem Holds.significant_eq (holds : Holds order value column encoded) :
    significant column.type
      (encoded ++ List.replicate (column.span.length - encoded.length) 0) = encoded := by
  rw [significant]
  cases sized : column.type.size? with
  | some size =>
      have full := holds.full size sized
      simp [full]
  | none =>
      have solid := holds.solid sized
      have zeros : (List.replicate (column.span.length - encoded.length) (0 : UInt8)).takeWhile
          (· ≠ 0) = [] := by
        cases column.span.length - encoded.length <;> simp [List.replicate_succ]
      have kept : encoded.takeWhile (· ≠ 0) = encoded := by
        rw [List.takeWhile_eq_self_iff]
        intro byte mem
        have nonzero : byte ≠ 0 := fun zero => solid (by rwa [← zero])
        simpa using nonzero
      simp only
      rw [List.takeWhile_append, kept, if_pos rfl, zeros, List.append_nil]

/-- A value that its slot holds is written there and read from there. -/
theorem Holds.writeCell (holds : Holds order value column encoded)
    (blank : Blank buffer column) :
    ∃ written, writeCell order value column buffer = .ok written ∧
      readCell order written column = .ok value ∧
      ∀ start stop, Beside start stop column →
        written.slice? start stop = buffer.slice? start stop := by
  have span := Slot.span?_eq holds.placed
  have room := holds.room
  have decoded {written : Bytes} (slice : written.slice? column.span.start column.span.stop =
      some (encoded ++ List.replicate (column.span.length - encoded.length) 0)) :
      readCell order written column = .ok value := by
    simp only [readCell, span, slice, holds.significant_eq, holds.decodes]
  by_cases void : value = .nothing
  · obtain rfl := holds.void void
    have filled : ([] : Bytes).length + column.span.length ≤ column.span.length := by simp
    obtain ⟨written, wrote, slice, frame⟩ := put_blank blank filled
    obtain ⟨ordered, -, -⟩ := Bytes.length_slice? blank
    refine ⟨written, ?_, decoded slice, frame⟩
    rw [List.nil_append] at wrote
    simp only [Row.writeCell, span, if_pos void, if_neg (not_lt.mpr ordered), wrote]
  · obtain ⟨zeros, inside, data⟩ := terminated_eq column.type room
    obtain ⟨written, wrote, slice, frame⟩ := put_blank blank inside
    refine ⟨written, ?_, decoded slice, frame⟩
    simp only [Row.writeCell, span, if_neg void, holds.encodes, bind, Except.bind,
      if_neg (not_lt.mpr room), data, wrote]

/-- Values that slots apart from each other hold are written and read back, and nothing else
changes. -/
theorem writeCells_holds {cells : List (Value × Column)}
    (holds : ∀ cell ∈ cells, ∃ encoded, Holds order cell.1 cell.2 encoded)
    (apart : cells.Pairwise fun left right => left.2.Apart right.2.toSlot)
    (blank : ∀ cell ∈ cells, Blank buffer cell.2) :
    ∃ row, writeCells order buffer cells = (.ok (), row) ∧
      (∀ cell ∈ cells, readCell order row cell.2 = .ok cell.1) ∧
      ∀ start stop, (∀ cell ∈ cells, Beside start stop cell.2) →
        row.slice? start stop = buffer.slice? start stop := by
  induction cells generalizing buffer with
  | nil => exact ⟨buffer, rfl, by simp, fun _ _ _ => rfl⟩
  | cons cell cells ih =>
      obtain ⟨value, column⟩ := cell
      obtain ⟨first, later⟩ := List.pairwise_cons.mp apart
      obtain ⟨⟨encoded, here⟩, others⟩ := List.forall_mem_cons.mp holds
      obtain ⟨blankHere, blankLater⟩ := List.forall_mem_cons.mp blank
      obtain ⟨written, wrote, read, frame⟩ := here.writeCell blankHere
      -- The slots to come are apart from this one: they are still blank now, and writing them
      -- leaves what was written here.
      have kept : ∀ cell ∈ cells, Blank written cell.2 := fun cell mem =>
        (frame _ _ (first cell mem).symm).trans (blankLater cell mem)
      obtain ⟨row, finished, reads, frames⟩ := ih others later kept
      refine ⟨row, ?_, List.forall_mem_cons.mpr ⟨?_, reads⟩, ?_⟩
      · simp only [writeCells, wrote, finished]
      · have length := length_writeCells order written cells
        rw [finished] at length
        exact (readCell_congr length (frames _ _ fun cell mem => first cell mem)).trans read
      · intro start stop beside
        obtain ⟨besideHere, besideLater⟩ := List.forall_mem_cons.mp beside
        exact (frames start stop besideLater).trans (frame start stop besideHere)

/-- A row of values that its slots hold is encoded, and the row is read back from its image. -/
theorem read_image {layout : Layout} {values : List Value}
    (holds : List.Forall₂ (fun value column => ∃ encoded, Holds .native value column encoded)
      values layout)
    (apart : layout.Pairwise fun left right => left.Apart right.toSlot)
    (ordered : ∀ column ∈ layout, column.span.start ≤ column.span.stop) :
    ∃ row, image? layout values = some row ∧ read .native row layout = .ok values := by
  have length := holds.length_eq
  obtain ⟨-, held⟩ := List.forall₂_iff_zip.mp holds
  have columns : (values.zip layout).map Prod.snd = layout :=
    List.map_snd_zip length.ge
  have blank : ∀ cell ∈ values.zip layout, Blank (List.replicate layout.rowLength 0) cell.2 := by
    rintro ⟨value, column⟩ mem
    obtain ⟨encoded, here⟩ := held mem
    have member := (List.of_mem_zip mem).2
    have inside : column.span.stop ≤ layout.rowLength :=
      Layout.stop_le_rowLength member here.placed
    simp only
    rw [Blank, Bytes.slice?, if_pos ⟨ordered column member, by simpa using inside⟩, Span.length,
      List.drop_replicate, List.take_replicate]
    congr 2
    omega
  have disjoint : (values.zip layout).Pairwise fun left right => left.2.Apart right.2.toSlot := by
    rw [← columns, List.pairwise_map] at apart
    exact apart
  obtain ⟨row, wrote, reads, -⟩ := writeCells_holds (fun cell mem => held mem) disjoint blank
  refine ⟨row, ?_, ?_⟩
  · rw [image?, write, if_neg (not_not_intro length), if_neg (by simp), wrote]
  · rw [read, Outcome.mapM_eq_ok_iff, List.forall₂_iff_zip]
    refine ⟨length.symm, fun {column value} mem => ?_⟩
    exact reads (value, column) (List.zip_swap _ _ ▸ List.mem_map_of_mem mem)

end RoundTrip

end Row

end RowStore
