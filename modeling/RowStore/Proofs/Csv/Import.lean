import Mathlib
import RowStore.Environment
import RowStore.Proofs.Csv.Placement
import RowStore.Proofs.RowFile.Transfer

/-! Tables imported into row files.

The layout of a table is accepted for reading it again, with its cells parsed. As its slots hold all
of them, the rows are the same in the table and in the file that it is written to.
-/

namespace RowStore.Csv

open RowFile (Builder)

variable {bytes : Bytes} {overrides : Overrides} {segments : RowCursor} {layout : Layout}

/-- A table that was laid out is read by its layout, and fits it. -/
theorem readTyped_of_layout [CalendarText] (laid : Csv.layout bytes overrides = .ok (segments, layout))
    (uncapped : ∀ found ∈ (readText bytes (some [])).2.getD [], found.width < Evidence.widthLimit) :
    ∃ table : Table,
      readTyped bytes (some layout) none = (.ok (.ofSource (table.typedSource layout)), none) ∧
      segments.length = table.lines.length ∧ table.Fits layout := by
  simp only [Csv.layout, Outcome.bind_eq_ok_iff] at laid
  obtain ⟨cursor, opened, _, -, layout', placed, same⟩ := laid
  obtain ⟨rfl, rfl⟩ := Prod.mk.inj (Except.ok.inj same)
  rw [Outcome.ofData, Outcome.mapError_eq_ok_iff] at opened placed
  cases scanned : Table.scan bytes (some []) with
  | mk result final =>
      simp only [readText, scanned] at opened placed uncapped
      obtain ⟨table, rfl, rfl⟩ := Outcome.map_eq_ok_iff.mp opened
      obtain ⟨reserved, rfl, length, plain, fields⟩ := Table.scan_eq_ok scanned
      rw [names_textSource, Option.getD_some] at placed
      have fits : Table.Fits ⟨bytes, table.names, table.lines, none⟩ layout' :=
        Table.fits_of_place placed length fields uncapped
      have accepted : targets ⟨bytes, table.names, table.lines, none⟩ (some layout') =
          .ok layout' := if_pos fits.width
      refine ⟨⟨bytes, table.names, table.lines, none⟩, ?_, rfl, fits⟩
      simp only [readTyped, Option.isNone_some, Bool.false_eq_true, if_false, plain, bind,
        Except.bind, accepted, ite_self]

/-- Nothing is lost on the way from a table to a row file. If no record of a width was cut off,
the table is read again by its own layout. If then every cell is parsed to a value whose stored form
has no zero that would end it early, the table is written to any file that can have the layout, and
the file has its rows. The codec is only asked to keep the blocks that occur. Row numbers have 64
bits, and offsets in a file 63. -/
theorem readRow_import [Host] [Checksum] [CalendarText]
    (laid : Csv.layout bytes overrides = .ok (segments, layout))
    (uncapped : ∀ found ∈ (readText bytes (some [])).2.getD [], found.width < Evidence.widthLimit) :
    ∃ typed, readTyped bytes (some layout) none = (.ok typed, none) ∧
      typed.length = segments.length ∧
      ((∀ row < typed.length, ∀ column < typed.width, ∃ value,
          typed.value row column = .ok value ∧ value.IsSolid) →
        ∀ (codec : BlockCodec) (rowsPerBlock : UInt32) (builder : Builder),
          Builder.create codec layout rowsPerBlock = .ok builder →
          builder.Keeps (typed.images layout) → typed.length < UInt64.size →
          (builder.writeCursor typed).2.finish.2.length < 1 <<< 63 →
            (builder.writeCursor typed).1 = .ok typed.length ∧
            (builder.writeCursor typed).2.finish.1 = .ok typed.length ∧
            ∃ file, RowFile.ofBytes codec (builder.writeCursor typed).2.finish.2 = .ok file ∧
              file.header.rows.toNat = typed.length ∧
              ∀ row < typed.length, ∃ values, typed.row row = .ok values ∧
                file.readRow row = .ok values) := by
  obtain ⟨table, read, length, fits⟩ := readTyped_of_layout laid uncapped
  refine ⟨_, read, length.symm, ?_⟩
  intro cells codec rowsPerBlock builder created keeps numbered seekable
  refine RowFile.readRow_writeCursor created List.length_range ?_ keeps numbered seekable
  intro row inside
  obtain ⟨values, valued, solid⟩ : ∃ values,
      (RowCursor.ofSource (table.typedSource layout)).rowValues row = .ok values ∧
        ∀ value ∈ values, value.IsSolid := by
    refine Outcome.exists_mapM_eq_ok fun column mem => ?_
    obtain ⟨value, valued, solid⟩ := cells row inside column (List.mem_range.mp mem)
    rw [RowCursor.value, Outcome.bind_eq_ok_iff] at valued
    obtain ⟨_, -, valued⟩ := valued
    exact ⟨value, valued, solid⟩
  obtain ⟨image, encoded, decoded⟩ := fits.read_image valued solid
  refine ⟨image, values, ?_, encoded, decoded⟩
  have checked : (RowCursor.ofSource (table.typedSource layout)).checkRow row = .ok () :=
    if_pos inside
  rw [RowCursor.row, checked]
  exact valued

/-- A number and a text, written without compression. -/
theorem readRow_import_number_and_text :
    let bytes : Bytes := [110, 44, 116, 10, 55, 44, 120, 10]
    let layout : Layout := [⟨⟨"n", .integer .int8, 0, 1⟩, []⟩, ⟨⟨"t", .string, 1, 2⟩, []⟩]
    ∃ segments typed builder file, Csv.layout bytes [] = .ok (segments, layout) ∧
      readTyped bytes (some layout) none = (.ok typed, none) ∧
      Builder.create .passthrough layout 1 = .ok builder ∧
      RowFile.ofBytes .passthrough (builder.writeCursor typed).2.finish.2 = .ok file ∧
      file.readRow 0 = .ok [.integer .int8 (IntType.int8.wrap 7), .string "x"] := by
  intro bytes layout
  let evidence : List Evidence := [.ofField [55], .ofField [120]]
  let table (deduced : Option Layout) : Table := ⟨bytes, ["n", "t"], [[⟨4, 5⟩, ⟨6, 7⟩]], deduced⟩
  have header : Table.header bytes =
      .ok (["n", "t"], ⟨⟨[⟨0, 1⟩, ⟨2, 3⟩], 4⟩, [55, 44, 120, 10], none⟩) := by decide +kernel
  have first : scanLines 2 7 4 [55, 44, 120, 10] [] (some []) =
      scanLines 2 7 8 [] [[⟨4, 5⟩, ⟨6, 7⟩]] (some evidence) :=
    scanLines_cons (by decide) rfl rfl (by decide +kernel)
  have last : scanLines 2 7 8 [] [[⟨4, 5⟩, ⟨6, 7⟩]] (some evidence) =
      (.ok [[⟨4, 5⟩, ⟨6, 7⟩]], some evidence) := by
    rw [scanLines]
    rfl
  have scanned : Table.scan bytes (some []) = (.ok (table (some layout)), some evidence) := by
    have stop : contentEnd 4 [55, 44, 120, 10] = 7 := by decide
    have fitted : Table.fitEvidence ["n", "t"] evidence = evidence := by decide +kernel
    have deduced : deducedLayout ["n", "t"] evidence = .ok layout := by decide +kernel
    have width : ["n", "t"].length = 2 := rfl
    simp only [Table.scan, header, stop, width, first, last, fitted, deduced]
    rfl
  have laid : Csv.layout bytes [] = .ok (.ofSource (table (some layout)).textSource, layout) := by
    have placed : Layout.place (slots [] ["n", "t"] evidence) = .ok layout := by decide +kernel
    have names : (table (some layout)).names = ["n", "t"] := rfl
    simp only [Csv.layout, readText, scanned, Outcome.ofData, Except.map, Except.mapError, bind,
      Except.bind, names_textSource, names, Option.getD_some, placed]
    rfl
  have uncapped : ∀ found ∈ (readText bytes (some [])).2.getD [],
      found.width < Evidence.widthLimit := by
    simp only [readText, scanned]
    decide +kernel
  obtain ⟨typed, read, -, imported⟩ := readRow_import laid uncapped
  obtain ⟨_, -, -, plain, -⟩ := Table.scan_eq_ok scanned
  let cursor : RowCursor := .ofSource ((table none).typedSource layout)
  have opened : readTyped bytes (some layout) none = (.ok cursor, none) := by
    simp only [readTyped, Option.isNone_some, Bool.false_eq_true, if_false, plain]
    rfl
  obtain rfl : typed = cursor :=
    Except.ok.inj (Prod.mk.inj (read.symm.trans opened)).1
  have images : cursor.images layout = [[7, 120]] := by decide +kernel
  have created : Builder.create .passthrough layout 1 = .ok ⟨.passthrough, layout, 1,
      [1, 0, 110, 1, 0, 0, 0, 0, 1, 0, 0, 0, 1, 0, 116, 13, 1, 0, 0, 0, 2, 0, 0, 0],
      [], 0, 0, [], []⟩ := by
    rfl
  have cells : ∀ row < cursor.length, ∀ column < cursor.width, ∃ value,
      cursor.value row column = .ok value ∧ value.IsSolid := by
    intro row inside column known
    obtain rfl : row = 0 := Nat.lt_one_iff.mp inside
    obtain rfl | rfl : column = 0 ∨ column = 1 :=
      Nat.le_one_iff_eq_zero_or_eq_one.mp (Nat.le_of_lt_succ known)
    · refine ⟨.integer .int8 (IntType.int8.wrap 7), by decide +kernel, fun unsized => ?_⟩
      simp [Value.type, ColumnType.size?] at unsized
    · refine ⟨.string "x", by decide +kernel, fun _ encoded wrote => ?_⟩
      cases wrote
      decide +kernel
  obtain ⟨-, -, file, reopened, -, rows⟩ := imported cells .passthrough 1 _ created
    (Builder.keeps_passthrough (by rw [images]; decide) rfl) (by decide +kernel) (by decide +kernel)
  obtain ⟨values, valued, found⟩ := rows 0 (by decide)
  have row : cursor.row 0 = .ok [.integer .int8 (IntType.int8.wrap 7), .string "x"] := by
    decide +kernel
  refine ⟨_, _, _, file, laid, read, created, reopened, ?_⟩
  rw [found, Except.ok.inj (valued.symm.trans row)]

end RowStore.Csv
