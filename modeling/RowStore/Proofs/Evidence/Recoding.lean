import Mathlib
import RowStore.Environment
import RowStore.Proofs.Evidence.Merge
import RowStore.Value.Encoding
import RowStore.Value.Parsing

/-! Widths that are recorded before it is known how a field is read.

Evidence sees the bytes of a field one by one and counts each of them as a Latin-1 character. Whether
the field is then read as Latin-1 or as sequences, its text takes no more room when it is stored, and
what follows in the column never lowers the width.
-/

namespace RowStore

theorem Text.Utf8.length_encode (text : List Char) :
    (encode text).length = (String.ofList text).utf8ByteSize :=
  List.size_toByteArray.symm

/-- A text of the plane is stored as its UTF-8 in a column of either text type, whichever of the two
it was read as. -/
theorem ColumnType.encode_text [CalendarText] {text : List Char} {kind : ColumnType}
    (bmp : ∀ c ∈ text, Text.Bmp.IsBmp c) (textual : kind ∈ [ColumnType.string, .chars]) :
    ∃ value, kind.parse text = .ok value ∧ ∀ type ∈ [ColumnType.string, .chars], ∀ order,
      type.encode order value = .ok (Text.Utf8.encode text) := by
  have plane := Text.Bmp.encode_eq bmp
  simp only [List.mem_cons, List.not_mem_nil, or_false] at textual
  cases textual with
  | inl string =>
      subst string
      exact ⟨_, rfl, by simp [ColumnType.encode, Text.Utf8.ofString, plane]⟩
  | inr chars =>
      subst chars
      exact ⟨_, rfl, by simp [ColumnType.encode, plane]⟩

namespace Evidence

variable {evidence : Evidence} {field : Bytes} {text : List Char}

theorem width_feed (closed : evidence.field = .empty) (field : Bytes) :
    (evidence.feed field).width = max evidence.width (min (Text.Bmp.room field) widthLimit) := by
  have added := (adds_feed evidence field closed).2
  rw [added, ← width_ofField field]
  rfl

theorem width_le_foldl_feed (closed : evidence.field = .empty) (later : List Bytes) :
    evidence.width ≤ (later.foldl feed evidence).width := by
  rw [adds_feed.foldl_eq_merge closed]
  exact le_max_left ..

/-- The room of a field is recorded, by the field itself and for good. -/
theorem room_le_width (closed : evidence.field = .empty) (later : List Bytes)
    (uncapped : (later.foldl feed (evidence.feed field)).width < widthLimit) :
    Text.Bmp.room field ≤ (later.foldl feed (evidence.feed field)).width := by
  have kept := width_le_foldl_feed (adds_feed evidence field closed).1 later
  have recorded := width_feed closed field
  omega

/-- However a field is read as text, the text takes at most the greater of the size of the field and
of its bytes as Latin-1 characters. It can be encoded. When its field has been fed to a column, and
any others after it, the column has recorded a width that is enough to store it. -/
theorem width_recoded [CalendarText] (closed : evidence.field = .empty)
    (read : Text.Bmp.decode field = .ok text) :
    (String.ofList text).utf8ByteSize ≤
        max field.length (field.map fun byte => Text.Bmp.encodedLength (Text.Bmp.latin1 byte)).sum ∧
      (∃ encoded, Text.Bmp.encode text = .ok encoded) ∧
      ∀ later : List Bytes, (later.foldl feed (evidence.feed field)).width < widthLimit →
        ∀ kind ∈ [ColumnType.string, .chars], ∃ value, kind.parse text = .ok value ∧
          ∀ type ∈ [ColumnType.string, .chars], ∀ order, ∃ stored,
            type.encode order value = .ok stored ∧
              stored.length ≤ (later.foldl feed (evidence.feed field)).width := by
  obtain ⟨bmp, short⟩ := Text.Bmp.decode_bounds read
  rw [← Text.Bmp.length_encode bmp] at short
  refine ⟨?size, ⟨_, Text.Bmp.encode_eq bmp⟩, fun later uncapped kind textual => ?stored⟩
  case size =>
    rw [← Text.Utf8.length_encode]
    exact short.trans (le_max_right ..)
  case stored =>
    obtain ⟨value, parsed, encoded⟩ := ColumnType.encode_text bmp textual
    have enough := short.trans (room_le_width closed later uncapped)
    exact ⟨value, parsed, fun type textual' order =>
      ⟨_, encoded type textual' order, enough⟩⟩

/-- A field of two bytes takes three when it is stored. It stands between two fields of one byte. -/
theorem width_recoded_latin1_letter :
    let column := none.observe "x"
    let last := ([[0x79]] : List Bytes).foldl feed (column.feed [0x63, 0xE9])
    column.field = .empty ∧ Text.Bmp.decode [0x63, 0xE9] = .ok ['c', 'é'] ∧
      last.width = 3 ∧ (String.ofList ['c', 'é']).utf8ByteSize ≤ 3 ∧
      ∃ value, ColumnType.string.parse ['c', 'é'] = .ok value ∧ ∃ stored,
        ColumnType.chars.encode .little value = .ok stored ∧ stored.length ≤ last.width := by
  intro column last
  have closed : column.field = .empty := by decide
  have read : Text.Bmp.decode [0x63, 0xE9] = .ok ['c', 'é'] := by decide
  have width : last.width = 3 := by decide
  obtain ⟨size, -, covers⟩ := width_recoded closed read
  obtain ⟨value, parsed, stores⟩ :=
    covers [[0x79]] (width.trans_lt (by decide)) .string (by decide)
  exact ⟨closed, read, width, size.trans (by decide), value, parsed,
    stores .chars (by decide) .little⟩

end Evidence

end RowStore
