import Mathlib
import RowStore.Proofs.RowFile.Reading

/-! Cursors written to row files.

A cursor whose rows are all encoded and read back from their own bytes is written as a whole, and
the file that it is written to has its rows.
-/

namespace RowStore

/-- The bytes of a row of a cursor, if it can be read and encoded. -/
def RowCursor.image? [Host] [CalendarText] (cursor : RowCursor) (layout : Layout) (row : Nat) :
    Option Bytes :=
  (cursor.row row).toOption.bind (Row.image? layout)

/-- The rows of a cursor that can be encoded, as they are encoded. -/
def RowCursor.images [Host] [CalendarText] (cursor : RowCursor) (layout : Layout) : List Bytes :=
  (List.range cursor.length).filterMap (cursor.image? layout)

/-- A row of a cursor is encoded, and read back from what it is encoded to. -/
def RowCursor.Stores [Host] [CalendarText] (cursor : RowCursor) (layout : Layout) (row : Nat)
    (image : Bytes) (values : List Value) : Prop :=
  cursor.row row = .ok values ∧ Row.image? layout values = some image ∧
    Row.read .native image layout = .ok values

namespace RowFile

variable [Host] [CalendarText] {codec : BlockCodec} {layout : Layout} {rowsPerBlock : UInt32}
  {builder : Builder} {cursor : RowCursor}

theorem forall₂_images
    (stores : ∀ row < cursor.length, ∃ image values, cursor.Stores layout row image values) :
    List.Forall₂ (fun row image => ∃ values, cursor.Stores layout row image values)
      (List.range cursor.length) (cursor.images layout) := by
  have each (numbers : List Nat)
      (known : ∀ row ∈ numbers, ∃ image values, cursor.Stores layout row image values) :
      List.Forall₂ (fun row image => ∃ values, cursor.Stores layout row image values) numbers
        (numbers.filterMap (cursor.image? layout)) := by
    induction numbers with
    | nil => exact .nil
    | cons row numbers ih =>
        obtain ⟨⟨image, values, stored⟩, others⟩ := List.forall_mem_cons.mp known
        have found : cursor.image? layout row = some image := by
          rw [RowCursor.image?, stored.1]
          exact stored.2.1
        rw [List.filterMap_cons_some found]
        exact .cons ⟨values, stored⟩ (ih others)
  exact each _ fun row mem => stores row (List.mem_range.mp mem)

theorem length_of_mem_images {image : Bytes} (mem : image ∈ cursor.images layout) :
    image.length = layout.rowLength := by
  obtain ⟨row, -, found⟩ := List.mem_filterMap.mp mem
  obtain ⟨values, -, encoded⟩ := Option.bind_eq_some_iff.mp found
  exact Row.length_of_image? encoded

/-- A cursor is written with all its rows, and they are the rows of the file. -/
theorem readRow_writeCursor [Checksum]
    (created : Builder.create codec layout rowsPerBlock = .ok builder)
    (width : cursor.width = layout.length)
    (stores : ∀ row < cursor.length, ∃ image values, cursor.Stores layout row image values)
    (keeps : builder.Keeps (cursor.images layout)) (numbered : cursor.length < UInt64.size)
    (seekable : (builder.writeCursor cursor).2.finish.2.length < 1 <<< 63) :
    (builder.writeCursor cursor).1 = .ok cursor.length ∧
      (builder.writeCursor cursor).2.finish.1 = .ok cursor.length ∧
      ∃ file, ofBytes codec (builder.writeCursor cursor).2.finish.2 = .ok file ∧
        file.header.rows.toNat = cursor.length ∧
        ∀ row < cursor.length, ∃ values, cursor.row row = .ok values ∧
          file.readRow row = .ok values := by
  obtain ⟨fresh, admissible⟩ := Builder.create_eq_ok created
  obtain ⟨tracks, resting⟩ := Builder.tracks_create created
  obtain ⟨codec_eq, layout_eq⟩ : builder.codec = codec ∧ builder.layout = layout := by
    rw [fresh]
    exact ⟨rfl, rfl⟩
  subst codec_eq layout_eq
  have images := forall₂_images stores
  have length : (cursor.images builder.layout).length = cursor.length := by
    rw [← images.length_eq, List.length_range]
  have encodes : List.Forall₂ (fun number image => ∃ values, cursor.rowValues number = .ok values ∧
      Row.image? builder.layout values = some image) (List.range cursor.length)
        (cursor.images builder.layout) := by
    refine images.imp ?_
    rintro row image ⟨values, valued, encoded, -⟩
    rw [RowCursor.row, Outcome.bind_eq_ok_iff] at valued
    obtain ⟨_, -, valued⟩ := valued
    exact ⟨values, valued, encoded⟩
  obtain ⟨last, wrote, written⟩ := tracks.writeRows resting encodes (by simpa using keeps) 0
  rw [List.length_range, Nat.zero_add] at wrote
  rw [List.nil_append] at written
  have transferred : builder.writeCursor cursor = (.ok cursor.length, last) := by
    rw [Builder.writeCursor, if_neg (not_not_intro width), wrote]
  rw [transferred] at seekable ⊢
  obtain ⟨full, finished, covers, bounded, opened, count⟩ :=
    written.reopen admissible keeps (by rwa [length]) seekable
  refine ⟨rfl, by rw [finished, length], full.file, opened, count.trans length, ?_⟩
  intro row inside
  have inRange : row < (List.range cursor.length).length := by rwa [List.length_range]
  have inImages : row < (cursor.images builder.layout).length := by rwa [length]
  obtain ⟨values, valued, -, read⟩ := images.get inRange inImages
  rw [List.get_eq_getElem, List.getElem_range] at valued
  refine ⟨values, valued, ?_⟩
  rw [List.get_eq_getElem] at read
  rw [covers.readRow admissible bounded (fun image mem => length_of_mem_images mem)
    (List.getElem?_eq_getElem inImages)]
  rw [read]
  rfl

end RowFile

end RowStore
