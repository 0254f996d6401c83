import Mathlib
import RowStore.Csv.Layout
import RowStore.Proofs.Csv.Collecting
import RowStore.Proofs.Cursor.Records
import RowStore.Proofs.Value.Encoding

/-! Tables in the slots laid out for them.

A layout is made from the evidence of a table. Where no record of a width was cut off, each slot has
room for every value that its column has in the table, whatever type it was forced to.
-/

namespace RowStore

/-- The stored form of the value has no zero byte, unless its type has a size of its own. -/
def Value.IsSolid [Host] (value : Value) : Prop :=
  value.type.size? = none → ∀ encoded, value.type.encode .native value = .ok encoded → 0 ∉ encoded

namespace Csv

/-- The slots of a layout have room for the fields of a table. -/
structure Table.Fits (table : Table) (layout : Layout) : Prop where
  width : layout.length = table.names.length
  lines : ∀ fields ∈ table.lines, fields.length = table.names.length
  placed : ∀ column ∈ layout, column.isPlaced = true
  ordered : ∀ column ∈ layout, column.span.start ≤ column.span.stop
  apart : layout.Pairwise fun left right => left.Apart right.toSlot
  sized : ∀ column ∈ layout, ∀ size, column.type.size? = some size → column.span.length = size
  room : ∀ (row index : Nat) (field : Span) (column : Column),
    table.field? row index = some field → layout[index]? = some column →
      column.type.size? = none → Text.Bmp.room (slice table.bytes field) ≤ column.span.length

variable {bytes : Bytes} {table : Table}

theorem names_textSource (table : Table) :
    (RowCursor.ofSource table.textSource).names = table.names := by
  rw [RowCursor.names, RowCursor.columns_ofSource]
  simp only [Table.textSource, Table.textColumns, List.map_map]
  refine (List.map_congr_left (g := Prod.fst) fun entry _ => ?_).trans (List.zipIdx_map_fst ..)
  rw [Function.comp_apply]
  split <;> rfl

theorem room_le_of_reserved {reserved : List Evidence} {row index : Nat} {field : Span}
    {found : Evidence}
    (fields : ∀ fields ∈ table.lines, LineReserved table.bytes reserved fields)
    (located : table.field? row index = some field) (recorded : reserved[index]? = some found)
    (uncapped : found.width < Evidence.widthLimit) :
    Text.Bmp.room (slice table.bytes field) ≤ found.width := by
  rw [Table.field?, Option.bind_eq_some_iff] at located
  obtain ⟨line, atRow, inLine⟩ := located
  obtain ⟨other, here, enough⟩ := fields line (List.mem_of_getElem? atRow) index field inLine
  obtain rfl := Option.some.inj (here.symm.trans recorded)
  rw [Evidence.width_ofField] at enough
  omega

theorem Table.fits_of_place {overrides : Overrides} {layout : Layout} {reserved : List Evidence}
    (placed : Layout.place (slots overrides table.names reserved) = .ok layout)
    (length : reserved.length = table.names.length)
    (fields : ∀ fields ∈ table.lines, fields.length = table.names.length ∧
      LineReserved table.bytes reserved fields)
    (uncapped : ∀ found ∈ reserved, found.width < Evidence.widthLimit) : table.Fits layout := by
  have width : layout.length = table.names.length := by
    rw [Layout.length_of_place placed, slots, List.length_map, List.length_zip, length, min_self]
  have serves (column : Column) (mem : column ∈ layout) : ∃ request, column.Serves request := by
    obtain ⟨index, found⟩ := List.mem_iff_getElem?.mp mem
    obtain ⟨request, -, serves⟩ := Layout.serves_of_place placed found
    exact ⟨request, serves⟩
  refine ⟨width, fun line mem => (fields line mem).1, ?_, ?_, Layout.apart_of_place placed, ?_, ?_⟩
  · intro column mem
    obtain ⟨_, serves⟩ := serves column mem
    exact serves.placed
  · intro column mem
    obtain ⟨_, serves⟩ := serves column mem
    exact serves.ordered
  · intro column mem size sized
    obtain ⟨_, serves⟩ := serves column mem
    rw [serves.room, ← serves.type, sized]
    rfl
  -- A slot without a size of its own has the width recorded, which is only enough when uncapped.
  · intro row index field column located found unsized
    obtain ⟨request, asked, serves⟩ := Layout.serves_of_place placed found
    rw [slots, List.getElem?_map, Option.map_eq_some_iff] at asked
    obtain ⟨⟨name, evidence⟩, paired, rfl⟩ := asked
    have recorded := (List.getElem?_zip_eq_some.mp paired).2
    rw [serves.room, ← serves.type, unsized, Option.getD_none]
    exact room_le_of_reserved (fun line mem => (fields line mem).2) located recorded
      (uncapped _ (List.mem_of_getElem? recorded))

section Cells

variable {layout : Layout} {row index : Nat} {column : Column} {value : Value}

theorem Table.parsed_eq_ok [CalendarText] {type : ColumnType}
    (parsed : table.parsed type row index = .ok value) :
    ∃ field text, table.field? row index = some field ∧
      Text.Bmp.decode (slice table.bytes field) = .ok text ∧ type.parse text = .ok value := by
  rw [Table.parsed, Outcome.bind_eq_ok_iff] at parsed
  obtain ⟨text, read, parsed⟩ := parsed
  cases located : table.field? row index with
  | none =>
      rw [located] at parsed
      contradiction
  | some field =>
      rw [located] at parsed
      rw [Table.chars, located] at read
      exact ⟨field, text, rfl, Outcome.mapError_eq_ok_iff.mp read,
        Outcome.mapError_eq_ok_iff.mp parsed⟩

/-- The value of a cell is stored in the room of its slot, all of it if the type has a size. -/
theorem Table.Fits.encode [Host] [CalendarText] {field : Span} {text : List Char}
    (fits : table.Fits layout)
    (found : layout[index]? = some column) (located : table.field? row index = some field)
    (read : Text.Bmp.decode (slice table.bytes field) = .ok text)
    (parsed : column.type.parse text = .ok value) :
    ∃ encoded, column.type.encode .native value = .ok encoded ∧
      encoded.length ≤ column.span.length ∧
      ∀ size, column.type.size? = some size → encoded.length = column.span.length := by
  obtain ⟨typed, -⟩ := ColumnType.parse_eq_ok parsed
  obtain ⟨bmp, short⟩ := Text.Bmp.decode_bounds read
  cases sized : column.type.size? with
  | some size =>
      obtain ⟨encoded, wrote, full⟩ := ColumnType.encode_sized .native typed sized
      have filled := fits.sized column (List.mem_of_getElem? found) size sized
      exact ⟨encoded, wrote, by omega, fun _ _ => by omega⟩
  | none =>
      obtain ⟨encoded, wrote, enough⟩ := ColumnType.encode_parsed .native parsed bmp sized
      have room := fits.room row index field column located found sized
      exact ⟨encoded, wrote, by omega, by simp⟩

/-- A slot with room for the field of a cell holds the value of the cell. -/
theorem Table.Fits.holds [Host] [CalendarText] (fits : table.Fits layout)
    (found : layout[index]? = some column)
    (parsed : table.parsed column.type row index = .ok value) (solid : value.IsSolid) :
    ∃ encoded, Row.Holds .native value column encoded := by
  obtain ⟨field, text, located, read, parsed⟩ := Table.parsed_eq_ok parsed
  obtain ⟨typed, -, chars, -⟩ := ColumnType.parse_eq_ok parsed
  obtain ⟨encoded, wrote, room, full⟩ := fits.encode found located read parsed
  have whole : ∀ window, value = .chars window → window = Window.ofList window.content := by
    rintro window rfl
    obtain rfl := Value.chars.inj (chars typed.symm)
    rw [Window.content_ofList]
  refine ⟨encoded, fits.placed column (List.mem_of_getElem? found), ?_, room, full, ?_, ?_, ?_⟩
  · rw [Row.encodeCell_eq _ typed, wrote]
  · intro unsized
    rw [← typed] at unsized wrote
    exact solid unsized encoded wrote
  · rintro rfl
    rw [← typed] at wrote
    cases wrote
    rfl
  · exact ColumnType.decode_encode typed whole wrote

theorem rowValues_typedSource [CalendarText] {values : List Value}
    (valued : (RowCursor.ofSource (table.typedSource layout)).rowValues row = .ok values) :
    List.Forall₂ (fun index value => ∃ column, layout[index]? = some column ∧
      table.parsed column.type row index = .ok value) (List.range layout.length) values := by
  have width : (RowCursor.ofSource (table.typedSource layout)).width = layout.length :=
    List.length_range
  rw [RowCursor.rowValues, width] at valued
  have cells := Outcome.mapM_eq_ok_iff.mp valued
  rw [List.forall₂_iff_zip] at cells ⊢
  refine ⟨cells.1, fun {index value} mem => ?_⟩
  have cell := cells.2 mem
  have known := List.mem_range.mp (List.of_mem_zip mem).1
  have found : layout[index]? = some layout[index] := List.getElem?_eq_getElem known
  rw [RowCursor.cell_ofSource (table.typedSource layout) row known] at cell
  simp only [Table.typedSource, found] at cell
  exact ⟨layout[index], found, cell⟩

/-- The slots hold a row whose cells are all parsed to solid values, and give it back. -/
theorem Table.Fits.read_image [Host] [CalendarText] {values : List Value} (fits : table.Fits layout)
    (valued : (RowCursor.ofSource (table.typedSource layout)).rowValues row = .ok values)
    (solid : ∀ value ∈ values, value.IsSolid) :
    ∃ image, Row.image? layout values = some image ∧ Row.read .native image layout = .ok values := by
  have cells := rowValues_typedSource valued
  refine Row.read_image ?_ fits.apart fits.ordered
  have length := cells.length_eq
  rw [List.length_range] at length
  rw [List.forall₂_iff_get] at cells ⊢
  refine ⟨length.symm, fun index inValues inLayout => ?_⟩
  obtain ⟨column, found, parsed⟩ := cells.2 index (by rwa [List.length_range]) inValues
  rw [List.get_eq_getElem, List.getElem_range] at found parsed
  rw [List.getElem?_eq_getElem inLayout, Option.some.injEq] at found
  subst found
  exact fits.holds (List.getElem?_eq_getElem inLayout) parsed (solid _ (List.getElem_mem inValues))

end Cells

end Csv

end RowStore
