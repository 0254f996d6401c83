import Mathlib
import RowStore.Environment
import RowStore.Proofs.Row.Overlay
import RowStore.Proofs.Value.Encoding

/-! Rows written over whatever a buffer held before.

A slot of variable size says nothing of how much of it is used. What was written ends with the slot or
at a zero byte behind it, and so it is read back up to its first zero byte: whole, unless it has one
of its own.
-/

namespace RowStore

theorem takeWhile_ne_eq_self_iff {α : Type} [DecidableEq α] {zero : α} {list : List α} :
    list.takeWhile (· ≠ zero) = list ↔ zero ∉ list := by
  rw [List.takeWhile_eq_self_iff]
  simp only [decide_eq_true_iff]
  constructor
  · intro differ mem
    exact differ zero mem rfl
  · intro absent x mem same
    exact absent (same ▸ mem)

namespace Value

variable {value converted : Value} {target : ColumnType}

theorem convertPlain_type [Host] [CalendarText] (plain : value.convertPlain target = .ok converted) :
    converted.type = target := by
  cases target with
  | string | chars | nothing =>
      cases plain
      rfl
  | boolean | integer | single | double | date | instant | bytes =>
      obtain ⟨found, -, rfl⟩ := Outcome.map_eq_ok_iff.mp plain
      rfl

theorem convert_type [Host] [CalendarText] (done : value.convert target = .ok converted) :
    converted.type = target := by
  unfold convert at done
  split at done
  · rename_i typed
    cases done
    exact typed
  · split at done
    · exact convertPlain_type done
    · exact convertPlain_type done
    · exact convertPlain_type done
    · exact (ColumnType.parse_eq_ok done).1
    · exact (ColumnType.parse_eq_ok done).1
    · exact convertPlain_type done

/-- The value up to its first zero, if it is of a type without a size. A text of characters gets a
window of its own. -/
def upToZero : Value → Value
  | .string text => .string (String.ofList (text.toList.takeWhile (· ≠ '\x00')))
  | .chars window => .chars (Window.ofList (window.content.takeWhile (· ≠ '\x00')))
  | .bytes found => .bytes (found.takeWhile (· ≠ 0))
  | value => value

/-- The same value, with a text of characters in a window of its own. -/
def renewed : Value → Value
  | .chars window => .chars (Window.ofList window.content)
  | value => value

def HasZero : Value → Prop
  | .string text => '\x00' ∈ text.toList
  | .chars window => '\x00' ∈ window.content
  | .bytes found => 0 ∈ found
  | _ => False

theorem upToZero_eq_renewed_iff : value.upToZero = value.renewed ↔ ¬ value.HasZero := by
  cases value with
  | string text =>
      have same : (string text).renewed = string text := rfl
      rw [HasZero, ← takeWhile_ne_eq_self_iff, upToZero, same, string.injEq, ← String.toList_inj,
        String.toList_ofList]
  | chars window =>
      rw [HasZero, ← takeWhile_ne_eq_self_iff, upToZero, renewed, chars.injEq]
      constructor
      · intro same
        have contents := congrArg Window.content same
        rwa [Window.content_ofList, Window.content_ofList] at contents
      · intro same
        rw [same]
  | bytes found =>
      have same : (bytes found).renewed = bytes found := rfl
      rw [HasZero, ← takeWhile_ne_eq_self_iff, upToZero, same, bytes.injEq]
  | _ => exact ⟨fun _ => not_false, fun _ => rfl⟩

end Value

section Encoding

theorem Text.Utf8.takeWhile_encode (chars : List Char) :
    (encode chars).takeWhile (· ≠ 0) = encode (chars.takeWhile (· ≠ '\x00')) := by
  induction chars with
  | nil => rfl
  | cons c chars ih =>
      rw [encode_cons]
      by_cases zero : c = '\x00'
      · subst zero
        rfl
      · have solid : (String.utf8EncodeChar c).takeWhile (· ≠ 0) = String.utf8EncodeChar c := by
          rw [takeWhile_ne_eq_self_iff]
          exact fun mem => zero (eq_of_mem_encodeChar mem (by decide))
        rw [List.takeWhile_append, solid, if_pos rfl, ih, List.takeWhile_cons_of_pos (by simpa)]
        rfl

namespace ColumnType

variable {type : ColumnType} {order : ByteOrder} {value : Value} {encoded : Bytes}

/-- What is stored of a value before its first zero byte is decoded as the value up to its first
zero. -/
theorem decode_upToZero (typed : value.type = type) (unsized : type.size? = none)
    (written : type.encode order value = .ok encoded) :
    type.decode order (encoded.takeWhile (· ≠ 0)) = .ok value.upToZero := by
  subst typed
  cases value with
  | boolean | integer | single | double | date | instant => cases unsized
  | string text =>
      cases written
      rw [Text.Utf8.ofString, Text.Utf8.takeWhile_encode, Value.type, decode, Text.Utf8.toString,
        Text.Utf8.decode_encode]
      rfl
  | chars window =>
      rw [Value.type, encode] at written
      have bmp := Text.Bmp.isBmp_of_encode written
      rw [Text.Bmp.encode_eq bmp] at written
      cases written
      have kept : ∀ c ∈ window.content.takeWhile (· ≠ '\x00'), Text.Bmp.IsBmp c := by
        intro c mem
        exact bmp c ((List.takeWhile_sublist _).subset mem)
      rw [Text.Utf8.takeWhile_encode, Value.type, decode, Text.Bmp.decode_encode kept]
      rfl
  | bytes found =>
      cases written
      rfl
  | nothing =>
      cases written
      rfl

end ColumnType

end Encoding

section Slots

variable {column : Column}

def Slot.Disjoint (left right : Slot) : Prop :=
  ∀ offset, left.span.start ≤ offset → offset < left.span.stop →
    ¬ (right.span.start ≤ offset ∧ offset < right.span.stop)

theorem Column.span_of_validate (valid : column.validate = .ok ())
    (placed : column.isPlaced = true) :
    column.span.start ≤ column.span.stop ∧
      ∀ size, column.type.size? = some size → column.span.length = size := by
  rw [← Slot.flaw?_eq_none_iff placed]
  rw [validate, validateSlots] at valid
  split at valid
  · cases valid
  · assumption

end Slots

namespace Row

variable {order : ByteOrder} {value converted : Value} {column : Column}
  {buffer other written encoded : Bytes} {cells : List (Value × Column)}

/-- A value and a slot that it can be written to, inside a buffer of some length. -/
structure Ready (length : Nat) (value : Value) (column : Column) : Prop where
  something : value ≠ .nothing
  placed : column.isPlaced = true
  ordered : column.span.start ≤ column.span.stop
  sized : ∀ size, column.type.size? = some size → column.span.length = size
  inside : column.span.stop ≤ length

/-- The stored form of a value is at the start of its slot. What else is there, a zero stands
before. -/
def Stores (order : ByteOrder) (buffer : Bytes) (column : Column) (converted : Value) : Prop :=
  ∃ encoded tail, column.type.encode order converted = .ok encoded ∧
    buffer.slice? column.span.start column.span.stop = some (encoded ++ tail) ∧
    ∀ byte ∈ tail.head?, byte = 0

theorem Stores.congr (stores : Stores order buffer column converted)
    (length : other.length = buffer.length)
    (same : ∀ offset, column.span.start ≤ offset → offset < column.span.stop →
      other[offset]? = buffer[offset]?) : Stores order other column converted := by
  obtain ⟨encoded, tail, encodes, slice, zero⟩ := stores
  refine ⟨encoded, tail, encodes, ?_, zero⟩
  rw [Bytes.slice?_eq_some_iff] at slice ⊢
  obtain ⟨ordered, inside, elements⟩ := slice
  refine ⟨ordered, length ▸ inside, fun index => ?_⟩
  rw [elements]
  split
  · exact (same _ (by omega) (by omega)).symm
  · rfl

theorem Ready.stands {length : Nat} (ready : Ready length value column) : Stands length column :=
  ⟨ready.placed, ready.ordered, ready.inside⟩

/-- A cell is written by converting its value and laying the stored form over its slot. -/
theorem Ready.writeCell_eq_ok [Host] [CalendarText] (ready : Ready buffer.length value column)
    (wrote : writeCell order value column buffer = .ok written) :
    ∃ converted encoded, value.convert column.type = .ok converted ∧
      column.type.encode order converted = .ok encoded ∧ encoded.length ≤ column.span.length ∧
      column.span.start + (terminated column.type encoded column.span.length).length ≤
        column.span.stop ∧
      written = buffer.overwrite column.span.start
        (terminated column.type encoded column.span.length) := by
  rw [ready.stands.writeCell_eq] at wrote
  obtain ⟨data, laid, rfl⟩ := Outcome.map_eq_ok_iff.mp wrote
  rw [overlay, if_neg ready.something] at laid
  obtain ⟨encoded, encodes, fitted⟩ := Outcome.bind_eq_ok_iff.mp laid
  obtain ⟨converted, done, encodes⟩ := Outcome.bind_eq_ok_iff.mp encodes
  split at fitted
  · cases fitted
  · rename_i room
    cases fitted
    exact ⟨converted, encoded, done, encodes, not_lt.mp room,
      ready.stands.fits (length_terminated_le column.type (not_lt.mp room)), rfl⟩

/-- What a cell is written as is stored in its slot, whatever the slot held before. -/
theorem Ready.stores_writeCell [Host] [CalendarText] (ready : Ready buffer.length value column)
    (wrote : writeCell order value column buffer = .ok written) :
    ∃ converted, value.convert column.type = .ok converted ∧
      Stores order written column converted := by
  obtain ⟨converted, encoded, done, encodes, room, fits, rfl⟩ := ready.writeCell_eq_ok wrote
  refine ⟨converted, done, encoded, ?_⟩
  have slice := Bytes.slice?_overwrite ready.inside fits
  rw [terminated] at slice ⊢
  split at slice
  · rename_i short
    rw [if_pos short]
    generalize (buffer.drop _).take _ = behind at slice
    refine ⟨0 :: behind, encodes, ?_, ?_⟩
    · rw [slice, List.append_assoc]
      rfl
    · rintro byte ⟨⟩
      rfl
  · rename_i long
    have full : encoded.length = column.span.length := by
      cases sized : column.type.size? with
      | none => exact Nat.le_antisymm room (not_lt.mp fun short => long ⟨sized, short⟩)
      | some size =>
          obtain ⟨encoded', encodes', length⟩ :=
            ColumnType.encode_sized order (Value.convert_type done) sized
          obtain rfl := Except.ok.inj (encodes.symm.trans encodes')
          rw [length, ready.sized size sized]
    rw [if_neg long]
    refine ⟨[], encodes, ?_, by simp⟩
    rw [Span.length] at full
    rw [slice, full, Nat.sub_self, List.take_zero]

/-- A stored value is read up to its first zero. -/
theorem Ready.readCell (ready : Ready buffer.length value column)
    (typed : converted.type = column.type) (stores : Stores order buffer column converted) :
    readCell order buffer column = .ok converted.upToZero := by
  obtain ⟨encoded, tail, encodes, slice, zero⟩ := stores
  simp only [Row.readCell, Slot.span?_eq ready.placed, slice]
  cases sized : column.type.size? with
  | some size =>
      obtain ⟨encoded', encodes', length⟩ := ColumnType.encode_sized order typed sized
      obtain rfl := Except.ok.inj (encodes.symm.trans encodes')
      have room := (Bytes.length_slice? slice).2.2
      have exact' := ready.sized size sized
      rw [Span.length] at exact'
      rw [List.length_append] at room
      obtain rfl : tail = [] := List.length_eq_zero_iff.mp (by omega)
      have plain : converted.upToZero = converted ∧
          ∀ window, converted = .chars window → window = Window.ofList window.content := by
        rw [← typed] at sized
        cases converted with
        | string | chars | bytes | nothing => cases sized
        | boolean | integer | single | double | date | instant => exact ⟨rfl, by simp⟩
      rw [significant, sized, List.append_nil, plain.1]
      exact ColumnType.decode_encode typed plain.2 encodes
  | none =>
      have stops : (encoded ++ tail).takeWhile (· ≠ 0) = encoded.takeWhile (· ≠ 0) := by
        have nothing : tail.takeWhile (· ≠ 0) = [] := by
          cases tail with
          | nil => rfl
          | cons byte tail => rw [zero byte rfl, List.takeWhile_cons_of_neg (by simp)]
        rw [List.takeWhile_append, nothing, List.append_nil]
        split
        · rename_i whole
          exact ((List.takeWhile_prefix _).eq_of_length whole).symm
        · rfl
      rw [significant, sized]
      simp only
      rw [stops]
      exact ColumnType.decode_upToZero typed sized encodes

/-- Cells are stored in their slots, and nothing else changes. -/
theorem writeCells_stores [Host] [CalendarText]
    (ready : ∀ cell ∈ cells, Ready buffer.length cell.1 cell.2)
    (disjoint : cells.Pairwise fun left right => left.2.Disjoint right.2.toSlot)
    (wrote : writeCells order buffer cells = (.ok (), written)) :
    (∀ cell ∈ cells, ∃ converted, cell.1.convert cell.2.type = .ok converted ∧
        Stores order written cell.2 converted) ∧
      ∀ offset, (∀ cell ∈ cells, ¬ (cell.2.span.start ≤ offset ∧ offset < cell.2.span.stop)) →
        written[offset]? = buffer[offset]? := by
  constructor
  · induction cells generalizing buffer with
    | nil => simp
    | cons cell cells ih =>
        obtain ⟨value, column⟩ := cell
        obtain ⟨here, later⟩ := List.forall_mem_cons.mp ready
        obtain ⟨first, others⟩ := List.pairwise_cons.mp disjoint
        rw [writeCells] at wrote
        cases put : writeCell order value column buffer with
        | error reason =>
            rw [put] at wrote
            cases wrote
        | ok next =>
            simp only [put] at wrote
            rw [← length_writeCell put] at later
            have length := length_writeCells order next cells
            rw [wrote] at length
            refine List.forall_mem_cons.mpr ⟨?_, ih later others wrote⟩
            obtain ⟨converted, done, stores⟩ := here.stores_writeCell put
            refine ⟨converted, done, stores.congr length fun offset after before => ?_⟩
            -- The cells to come leave this slot alone, since none of them has a byte of it.
            have frame := getElem?_writeCells order (fun cell mem => (later cell mem).stands)
              fun cell mem => first cell mem offset after before
            rwa [wrote] at frame
  · intro offset outside
    have frame := getElem?_writeCells order (fun cell mem => (ready cell mem).stands) outside
    rwa [wrote] at frame

/-- A row that was written is read back, whatever the buffer held before. Every value was converted to
the type of its column, and comes back up to its first zero if the type has no size. So the row comes
back whole just when no text and no byte string in it has a zero. -/
theorem read_of_write [Host] [CalendarText] {layout : Layout} {values : List Value}
    (valid : ∀ column ∈ layout, column.validate = .ok ())
    (placed : ∀ column ∈ layout, column.isPlaced = true)
    (disjoint : layout.Pairwise fun left right => left.Disjoint right.toSlot)
    (something : .nothing ∉ values)
    (wrote : write order values layout buffer = (.ok (), written)) :
    ∃ converted, (values.zip layout).mapM (fun cell => cell.1.convert cell.2.type) = .ok converted ∧
      read order written layout = .ok (converted.map Value.upToZero) ∧
      (read order written layout = .ok (converted.map Value.renewed) ↔
        ∀ value ∈ converted, ¬ value.HasZero) := by
  rw [write] at wrote
  split at wrote
  · cases wrote
  rename_i counted
  split at wrote
  · cases wrote
  rename_i long
  have length : values.length = layout.length := not_not.mp counted
  have columns : (values.zip layout).map Prod.snd = layout := List.map_snd_zip length.ge
  have ready : ∀ cell ∈ values.zip layout, Ready buffer.length cell.1 cell.2 := by
    rintro ⟨value, column⟩ mem
    obtain ⟨inValues, inLayout⟩ := List.of_mem_zip mem
    obtain ⟨ordered, sized⟩ :=
      Column.span_of_validate (valid column inLayout) (placed column inLayout)
    have inside := Layout.stop_le_rowLength inLayout (placed column inLayout)
    exact ⟨fun void => something (void ▸ inValues), placed column inLayout, ordered, sized,
      inside.trans (not_lt.mp long)⟩
  have apart : (values.zip layout).Pairwise fun left right => left.2.Disjoint right.2.toSlot := by
    rw [← columns, List.pairwise_map] at disjoint
    exact disjoint
  obtain ⟨stored, -⟩ := writeCells_stores ready apart wrote
  have kept := length_writeCells order buffer (values.zip layout)
  rw [wrote] at kept
  have cells : ∀ cell ∈ values.zip layout, ∃ converted,
      cell.1.convert cell.2.type = .ok converted ∧
        readCell order written cell.2 = .ok converted.upToZero := by
    intro cell mem
    obtain ⟨converted, done, stores⟩ := stored cell mem
    exact ⟨converted, done, (kept ▸ ready cell mem).readCell (Value.convert_type done) stores⟩
  obtain ⟨converted, done, reads⟩ := Outcome.exists_mapM_eq_ok_map cells
  have row : read order written layout = .ok (converted.map Value.upToZero) := by
    rw [← reads, read]
    conv_lhs => rw [← columns, List.mapM_map]
    rfl
  refine ⟨converted, done, row, ?_⟩
  rw [row, Except.ok.injEq, List.map_inj_left]
  exact forall₂_congr fun value mem => Value.upToZero_eq_renewed_iff

/-- A text in a buffer with other bytes in it, and a byte string with a zero. -/
theorem read_of_write_stale_buffer :
    let layout : Layout := [⟨⟨"n", .integer .uint8, 0, 1⟩, []⟩, ⟨⟨"s", .string, 1, 4⟩, []⟩]
    write .little [.string "7", .string "x"] layout [9, 9, 9, 9] = (.ok (), [7, 120, 0, 9]) ∧
      read .little [7, 120, 0, 9] layout =
        .ok [.integer .uint8 (IntType.uint8.wrap 7), .string "x"] := by
  intro layout
  have wrote : write .little [.string "7", .string "x"] layout [9, 9, 9, 9] =
      (.ok (), [7, 120, 0, 9]) := by decide +kernel
  have disjoint : layout.Pairwise fun left right => left.Disjoint right.toSlot := by
    refine List.pairwise_pair.mpr fun offset _ before inside => ?_
    have first : offset < 1 := before
    have second : 1 ≤ offset := inside.1
    omega
  obtain ⟨converted, done, -, whole⟩ :=
    read_of_write (by decide +kernel) (by decide) disjoint (by decide) wrote
  have known : ([Value.string "7", .string "x"].zip layout).mapM (fun cell =>
      cell.1.convert cell.2.type) =
        .ok [.integer .uint8 (IntType.uint8.wrap 7), .string "x"] := by decide +kernel
  obtain rfl := Except.ok.inj (done.symm.trans known)
  refine ⟨wrote, whole.mpr ?_⟩
  intro value mem
  rcases List.mem_pair.mp mem with rfl | rfl
  · exact not_false
  · simp [Value.HasZero]

/-- A byte string is cut off at its zero. -/
theorem read_of_write_zero_byte :
    let layout : Layout := [⟨⟨"b", .bytes, 0, 3⟩, []⟩]
    layout.Pairwise (fun left right => left.Disjoint right.toSlot) ∧
      (∀ column ∈ layout, column.validate = .ok () ∧ column.isPlaced = true) ∧
      write .native [.bytes [1, 0, 2]] layout [9, 9, 9] = (.ok (), [1, 0, 2]) ∧
      (Value.bytes [1, 0, 2]).convert .bytes = .ok (.bytes [1, 0, 2]) ∧
      read .native [1, 0, 2] layout = .ok [.bytes [1]] := by
  intro layout
  refine ⟨List.pairwise_singleton _ _, by decide +kernel, by decide +kernel, by decide, by decide⟩

end Row

end RowStore
