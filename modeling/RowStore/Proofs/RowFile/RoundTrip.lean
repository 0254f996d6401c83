import Mathlib
import RowStore.Environment
import RowStore.Proofs.RowFile.Reading

/-! Whatever calls are made while a file is written, it reads back as the rows that were accepted. -/

namespace RowStore.RowFile

variable {codec : BlockCodec} {layout : Layout} {rowsPerBlock : UInt32} {builder : Builder}

/-- A finished file has exactly the rows of the calls that succeeded, in their order, and its layout
is the one it was created with, without later stages. Reading a row by its number and reading it in
a cursor both decode the bytes that were encoded for it. The codec is only asked to keep the blocks
that occur. Row numbers have 64 bits, offsets in a file 63, and a cursor holds all rows at once, in
room that is reserved before if it is loaded. -/
theorem ofBytes_finish [Host] [Checksum] [CalendarText]
    (created : Builder.create codec layout rowsPerBlock = .ok builder)
    (calls : List (List Value)) (keeps : builder.Keeps (calls.filterMap (Row.image? layout)))
    (numbered : (calls.filterMap (Row.image? layout)).length < UInt64.size)
    (seekable : (builder.writeAll calls).2.finish.2.length < 1 <<< 63) :
    (builder.writeAll calls).1.map Except.isOk =
        calls.map (fun values => (Row.image? layout values).isSome) ∧
      (builder.writeAll calls).2.finish.1 = .ok ((builder.writeAll calls).1.countP Except.isOk) ∧
      ∃ file, ofBytes codec (builder.writeAll calls).2.finish.2 = .ok file ∧
        file.header.rows.toNat = (builder.writeAll calls).1.countP Except.isOk ∧
        file.layout = layout.map Column.withoutStages ∧
        (∀ row image, (calls.filterMap (Row.image? layout))[row]? = some image →
          file.readRow row = Outcome.inContext (.decoding row)
            (Outcome.ofData (Row.read .native image layout))) ∧
        ((calls.filterMap (Row.image? layout)).length * layout.rowLength ≤ sizeLimit →
          ∃ cursor, file.toCursor = .ok cursor ∧
            ((calls.filterMap (Row.image? layout)).length * layout.rowLength < 1 <<< 63 →
              file.load = .ok cursor) ∧
            cursor.length = (builder.writeAll calls).1.countP Except.isOk ∧
            ∀ row image, (calls.filterMap (Row.image? layout))[row]? = some image → ∀ values,
              cursor.row row = .ok values ↔ Row.read .native image layout = .ok values) := by
  obtain ⟨fresh, admissible⟩ := Builder.create_eq_ok created
  obtain ⟨tracks, resting⟩ := Builder.tracks_create created
  obtain ⟨codec_eq, layout_eq⟩ : builder.codec = codec ∧ builder.layout = layout := by
    rw [fresh]
    exact ⟨rfl, rfl⟩
  subst codec_eq layout_eq
  obtain ⟨answers, written⟩ := tracks.writeAll resting calls (by simpa using keeps)
  rw [List.nil_append] at written
  obtain ⟨full, finished, covers, bounded, opened, count⟩ :=
    written.reopen admissible keeps numbered seekable
  have uniform : ∀ row ∈ calls.filterMap (Row.image? builder.layout),
      row.length = builder.layout.rowLength := by
    intro row mem
    obtain ⟨values, -, encoded⟩ := List.mem_filterMap.mp mem
    exact Row.length_of_image? encoded
  have accepted : (builder.writeAll calls).1.countP Except.isOk =
      (calls.filterMap (Row.image? builder.layout)).length := by
    have counts := congrArg (List.countP id) answers
    rw [List.countP_map, List.countP_map] at counts
    rw [List.length_filterMap_eq_countP]
    exact counts
  rw [accepted]
  refine ⟨answers, by rw [finished], full.file, opened, count, ?_, ?_, ?_⟩
  · exact congrArg (List.map Column.withoutStages) covers.shape.2.1
  · intro row image found
    exact covers.readRow admissible bounded uniform found
  · intro fits
    have gathered := covers.toCursor admissible bounded uniform fits
    refine ⟨_, gathered, fun room => (covers.load uniform room).trans gathered, rfl, ?_⟩
    intro row image found values
    have inside := (List.getElem?_eq_some_iff.mp found).1
    rw [RowCursor.row_ofRecords_eq_ok_iff inside (slice?_flatten uniform found),
      Row.read_withoutStages]

/-- Four calls, of which the third has no number; the last row stands in a block of its own. -/
theorem ofBytes_finish_partial_block :
    let layout : Layout := [⟨⟨"n", .integer .int8, 0, 1⟩, []⟩]
    let call (number : Int) : List Value := [.integer .int8 (IntType.int8.wrap number)]
    let calls := [call 5, call (-6), [.string "seven"], call 8]
    ∃ builder file, Builder.create .passthrough layout 2 = .ok builder ∧
      (builder.writeAll calls).2.finish.1 = .ok 3 ∧
      ofBytes .passthrough (builder.writeAll calls).2.finish.2 = .ok file ∧
      file.readRow 2 = .ok (call 8) := by
  intro layout call calls
  have images : calls.filterMap (Row.image? layout) = [[5], [250], [8]] := by decide
  have created : Builder.create .passthrough layout 2 =
      .ok ⟨.passthrough, layout, 2, [1, 0, 110, 1, 0, 0, 0, 0, 1, 0, 0, 0], [], 0, 0, [], []⟩ := by
    rfl
  obtain ⟨-, finished, file, opened, -, -, read, -⟩ := ofBytes_finish created calls
    (Builder.keeps_passthrough (by rw [images]; decide) rfl) (by rw [images]; decide) (by decide +kernel)
  refine ⟨_, file, created, ?_, opened, ?_⟩
  · rw [finished]
    decide
  · rw [read 2 [8] (by rw [images]; rfl)]
    rfl

end RowStore.RowFile
