import Mathlib
import RowStore.Csv.Export
import RowStore.Environment
import RowStore.Proofs.Csv.Rendering
import RowStore.Proofs.Csv.Scanning
import RowStore.Proofs.Cursor.Records
import RowStore.Proofs.Text.Bmp
import RowStore.RowFile.Reading

/-! Row files written as tables, and scanned again.

Each row is written as one line, and a line with content is read as one row. Only the lines of a single
column can be without: an empty one is skipped, and blank ones at the end are cut off.
-/

namespace RowStore.Csv

open Text.Utf8 (ofString)
open Csv.Field (render renderLine)

section Lines

variable {bytes : Bytes} {base offset : Nat} {rows : List (List String)} {lines : List String}
  {cursor : RowCursor}

theorem ofString_joined (line : String) (lines : List String) :
    ofString (joined (line :: lines)) = ofString line ++ 0x0A :: ofString (joined lines) := by
  rw [joined, List.map_cons, String.join_cons, Text.Utf8.ofString_append,
    Text.Utf8.ofString_append, List.append_assoc]
  rfl

theorem mem_ofString_joined {line : String} {byte : UInt8} (mem : line ∈ lines)
    (inside : byte ∈ ofString line) : byte ∈ ofString (joined lines) := by
  induction lines with
  | nil => cases mem
  | cons first lines ih =>
      rw [ofString_joined]
      rcases List.mem_cons.mp mem with rfl | later
      · exact List.mem_append_left _ inside
      · exact List.mem_append_right _ (List.mem_cons_of_mem _ (ih later))

theorem rowLines_eq_ok [CalendarText] {numbers : List Nat}
    (written : rowLines cursor numbers = (.ok (), lines)) :
    ∃ rows : List (List Value), lines = rows.map rowLine ∧ rows.length = numbers.length ∧
      ∀ values ∈ rows, ∃ row, cursor.rowValues row = .ok values := by
  induction numbers generalizing lines with
  | nil =>
      cases written
      exact ⟨[], rfl, rfl, by simp⟩
  | cons row numbers ih =>
      rw [rowLines] at written
      cases read : cursor.rowValues row with
      | error reason =>
          rw [read] at written
          cases written
      | ok values =>
          cases others : rowLines cursor numbers with
          | mk outcome later =>
              simp only [read, others] at written
              obtain ⟨rfl, rfl⟩ := Prod.mk.inj written
              obtain ⟨rows, rfl, length, valued⟩ := ih others
              refine ⟨values :: rows, rfl, ?_, List.forall_mem_cons.mpr ⟨⟨row, read⟩, valued⟩⟩
              rw [List.length_cons, length, List.length_cons]

/-- Rows follow one another as they were written, if each has content and the last one is not
blank. -/
theorem follow_joined (reached : base ≤ offset) (inside : offset ≤ bytes.length)
    (split : bytes.drop offset = ofString (joined (rows.map renderLine)))
    (seen : ∀ row ∈ rows, row ≠ [] ∧ row ≠ [""])
    (last : ∀ row ∈ rows.getLast?, ∃ byte ∈ ofString (renderLine row), isEndBlank byte = false) :
    ∃ lines, Line.Follow bytes (contentEnd base (bytes.drop base)) offset lines bytes.length ∧
      lines.map (fun line => line.fields.map (slice bytes)) =
        rows.map fun row => row.map fun text => ofString (render text) := by
  induction rows generalizing offset with
  | nil =>
      have empty : offset = bytes.length := Nat.le_antisymm inside (List.drop_eq_nil_iff.mp split)
      subst empty
      exact ⟨[], .done _, rfl⟩
  | cons row rows ih =>
      obtain ⟨here, later⟩ := List.forall_mem_cons.mp seen
      have content : offset < contentEnd base (bytes.drop base) := by
        have known := List.getLast?_eq_some_getLast (List.cons_ne_nil row rows)
        obtain ⟨byte, mem, solid⟩ := last _ known
        refine lt_contentEnd ?_ solid
        rw [split]
        exact mem_ofString_joined (List.mem_map_of_mem (List.mem_of_getLast? known)) mem
      rw [List.map_cons, ofString_joined] at split
      obtain ⟨line, there, slices, stop⟩ := foundAt_renderLine inside split here.1 here.2
      have next := (getElem?_behind split).2
      rw [← stop] at next
      obtain ⟨lines, follow, others⟩ := ih (reached.trans there.lt_stop.le) there.stop_le next later
        (fun final known => last final (by
          cases rows with
          | nil => cases known
          | cons second rows => rw [List.getLast?_cons_cons]; exact known))
      exact ⟨line :: lines, .next content there follow, by rw [List.map_cons, slices, others]; rfl⟩

end Lines

section Header

variable {bytes : Bytes} {fields : List Span} {texts : List String} {rest : Bytes}

theorem exists_columnNames_iff
    (slices : fields.map (slice bytes) = texts.map fun text => ofString (render text)) :
    (∃ names, columnNames bytes fields = .ok names) ↔
      ∀ text ∈ texts, ∃ name, columnName (ofString (render text)) = .ok name := by
  have same (P : Bytes → Prop) :
      (∀ span ∈ fields, P (slice bytes span)) ↔ ∀ text ∈ texts, P (ofString (render text)) := by
    rw [← List.forall_mem_map (f := slice bytes), slices, List.forall_mem_map]
  rw [← same fun field => ∃ name, columnName field = .ok name]
  constructor
  · rintro ⟨names, named⟩ span mem
    exact Outcome.exists_of_mapM_eq_ok named mem
  · intro each
    have all : ∃ names, columnNames bytes fields = .ok names ∧ ∀ name ∈ names, True := by
      apply Outcome.exists_mapM_eq_ok
      intro span mem
      obtain ⟨name, named⟩ := each span mem
      exact ⟨name, named, trivial⟩
    obtain ⟨names, named, -⟩ := all
    exact ⟨names, named⟩

theorem isBmp_of_mem_escaped {chars : List Char} (bmp : ∀ c ∈ chars, Text.Bmp.IsBmp c) :
    ∀ c ∈ Field.escaped chars, Text.Bmp.IsBmp c := by
  intro c mem
  obtain ⟨origin, known, inside⟩ := List.mem_flatMap.mp mem
  split at inside
  · rcases List.mem_pair.mp inside with rfl | rfl
    · exact show '\\'.toNat < 0x10000 by decide
    · exact bmp c known
  · rw [List.mem_singleton.mp inside]
    exact bmp origin known

/-- A text of the Basic Multilingual Plane stands in its field as it was rendered. -/
theorem decode_render {text : String} (bmp : ∀ c ∈ text.toList, Text.Bmp.IsBmp c) :
    Text.Bmp.decode (ofString (render text)) = .ok (render text).toList := by
  have quote : Text.Bmp.IsBmp '"' := show '"'.toNat < 0x10000 by decide
  refine Text.Bmp.decode_encode ?_
  rw [render]
  split
  · exact bmp
  · intro c mem
    rw [String.toList_ofList, List.cons_append, List.mem_cons, List.mem_append,
      List.mem_singleton] at mem
    rcases mem with rfl | inside | rfl
    · exact quote
    · exact isBmp_of_mem_escaped bmp c inside
    · exact quote

/-- A name in the Basic Multilingual Plane can be read as the name of a column. -/
theorem exists_columnName {text : String} (bmp : ∀ c ∈ text.toList, Text.Bmp.IsBmp c) :
    ∃ name, columnName (ofString (render text)) = .ok name := by
  rw [columnName, decode_render bmp]
  exact ⟨_, rfl⟩

end Header

section Written

variable {names : List String} {rows : List (List String)}

/-- Rows that were written are scanned, if the names of the columns can be read. Each has its row, and
each text its field. -/
theorem Table.scan_written (bytes : Bytes)
    (written : bytes = ofString (joined ((names :: rows).map renderLine)))
    (seen : ∀ row ∈ names :: rows, row ≠ [] ∧ row ≠ [""])
    (widths : ∀ row ∈ rows, row.length = names.length)
    (last : ∀ row ∈ rows.getLast?, ∃ byte ∈ ofString (renderLine row), isEndBlank byte = false) :
    ((∃ table, (Table.scan bytes none).1 = .ok table) ↔
        ∀ name ∈ names, ∃ read, columnName (ofString (render name)) = .ok read) ∧
      ∀ evidence table, (Table.scan bytes evidence).1 = .ok table →
        table.names.length = names.length ∧
        table.lines.map (fun fields => fields.map (slice bytes)) =
          rows.map fun row => row.map fun text => ofString (render text) := by
  obtain ⟨here, later⟩ := List.forall_mem_cons.mp seen
  have split : bytes.drop 0 = ofString (renderLine names) ++
      0x0A :: ofString (joined (rows.map renderLine)) := by
    rw [List.drop_zero, written, List.map_cons, ofString_joined]
  obtain ⟨line, there, slices, stop⟩ := foundAt_renderLine (Nat.zero_le _) split here.1 here.2
  have behind := (getElem?_behind split).2
  rw [← stop] at behind
  obtain ⟨lines, follow, others⟩ :=
    follow_joined (Nat.le_refl line.stop) there.stop_le behind later last
  obtain ⟨found, first, rfl⟩ := there.first? none
  obtain ⟨rest, -⟩ := Line.rest_of_first? (Nat.zero_le _) first
  rw [List.drop_zero] at first
  rw [← rest] at follow
  have header : Table.header bytes =
      (columnNames bytes found.line.fields).map fun names => (names, found) := by
    rw [Table.header_eq, first]
  have width : found.line.fields.length = names.length := by
    have length := congrArg List.length slices
    rwa [List.length_map, List.length_map] at length
  -- Once the names are read, the scan goes through the lines that were written.
  have outcome {columns : List String} (named : columnNames bytes found.line.fields = .ok columns)
      (evidence : Option (List Evidence)) :
      columns.length = names.length ∧
        ((∃ deduced, (Table.scan bytes evidence).1 =
            .ok ⟨bytes, columns, lines.map Line.fields, deduced⟩) ∨
          evidence ≠ none ∧ ∃ reason, (Table.scan bytes evidence).1 = .error reason ∧
            ∀ start, reason ≠ .noFields start) := by
    have read : Table.header bytes = .ok (columns, found) := by
      rw [header, named]
      rfl
    have length := (length_columnNames named).trans width
    refine ⟨length, Table.scan_of_follow read follow ?_ ?_ evidence⟩
    · intro line mem
      have fields := List.mem_map_of_mem (f := fun line => line.fields.map (slice bytes)) mem
      rw [others, List.mem_map] at fields
      obtain ⟨row, known, same⟩ := fields
      have count := congrArg List.length same
      rw [List.length_map, List.length_map] at count
      rw [← count, widths row known, length]
    · rw [rest]
      exact contentEnd_le there.stop_le
  have named {evidence : Option (List Evidence)} {table : Table}
      (scanned : (Table.scan bytes evidence).1 = .ok table) :
      ∃ columns, columnNames bytes found.line.fields = .ok columns := by
    cases named : columnNames bytes found.line.fields with
    | ok columns => exact ⟨columns, rfl⟩
    | error reason =>
        rw [named] at header
        rw [Table.scan, header] at scanned
        cases scanned
  rw [← exists_columnNames_iff slices]
  refine ⟨⟨?_, ?_⟩, ?_⟩
  · rintro ⟨table, scanned⟩
    exact named scanned
  · rintro ⟨columns, named⟩
    rcases (outcome named none).2 with ⟨deduced, scanned⟩ | ⟨absurd, -⟩
    · exact ⟨_, scanned⟩
    · exact (absurd rfl).elim
  · intro evidence table scanned
    obtain ⟨columns, named⟩ := named scanned
    obtain ⟨length, ⟨deduced, same⟩ | ⟨-, reason, refused, -⟩⟩ := outcome named evidence
    · obtain rfl := Except.ok.inj (scanned.symm.trans same)
      refine ⟨length, ?_⟩
      rw [← others, List.map_map]
      rfl
    · rw [scanned] at refused
      cases refused

end Written

section Shape

variable {file : RowFile} {cursor : RowCursor} {lines : List String}

/-- A cursor over a row file has its columns and its rows. -/
theorem shape_of_toCursor [Checksum] (read : file.toCursor = .ok cursor) :
    cursor.names = file.layout.map (fun column => column.name) ∧
      cursor.width = file.layout.length ∧ cursor.length = file.header.rows.toNat := by
  rw [RowFile.toCursor, Outcome.bind_eq_ok_iff] at read
  obtain ⟨blocks, -, opened⟩ := read
  rw [Outcome.ofData, Outcome.mapError_eq_ok_iff, RowCursor.ofRecords, Outcome.bind_eq_ok_iff] at opened
  obtain ⟨_, -, opened⟩ := opened
  simp only at opened
  split at opened
  · cases opened
  · cases opened
    refine ⟨?_, List.length_range, rfl⟩
    rw [RowCursor.names, RowCursor.columns_ofSource]
    rfl

/-- An exported table has one line for the names and one for each row, each with a text for each
column. -/
theorem lines_eq_ok [CalendarText] (exported : Csv.lines cursor = (.ok (), lines)) :
    ∃ rows : List (List String), lines = (cursor.names :: rows).map renderLine ∧
      rows.length = cursor.length ∧ ∀ row ∈ rows, row.length = cursor.width := by
  rw [Csv.lines] at exported
  cases written : rowLines cursor (List.range cursor.length) with
  | mk outcome later =>
      simp only [written] at exported
      obtain ⟨rfl, rfl⟩ := Prod.mk.inj exported
      obtain ⟨rows, rfl, length, valued⟩ := rowLines_eq_ok written
      refine ⟨rows.map fun values => values.map Value.text, ?_, ?_, ?_⟩
      · rw [List.map_cons, List.map_map]
        rfl
      · rw [List.length_map, length, List.length_range]
      · refine List.forall_mem_map.mpr fun values mem => ?_
        obtain ⟨row, read⟩ := valued values mem
        rw [RowCursor.rowValues, Outcome.mapM_eq_ok_iff] at read
        rw [List.length_map, ← read.length_eq, List.length_range]

theorem renderLine_empty : renderLine [""] = "" := by
  decide +kernel

/-- A line of several fields has a comma. -/
theorem comma_mem_renderLine {row : List String} (several : 2 ≤ row.length) :
    comma ∈ ofString (renderLine row) := by
  rw [ofString_renderLine]
  match row, several with
  | first :: second :: others, _ =>
      rw [List.map_cons, List.map_cons, List.intercalate_cons_cons]
      simp

/-- An exported row file keeps its shape. It is scanned just when the names of its columns can be read,
and so whenever they lie in the Basic Multilingual Plane, and then it has the columns and the rows of the
file. Of a file with a single column, no line may be empty, and the last row may not be blank. -/
theorem scan_joined [Checksum] [CalendarText] (read : file.toCursor = .ok cursor)
    (exported : Csv.lines cursor = (.ok (), lines)) (columns : file.layout ≠ [])
    (single : file.layout.length = 1 → "" ∉ lines ∧
      ∀ line ∈ lines.tail.getLast?, ∃ byte ∈ ofString line, isEndBlank byte = false) :
    ((∃ table, (Table.scan (ofString (joined lines)) none).1 = .ok table) ↔
        ∀ column ∈ file.layout, ∃ name, columnName (ofString (render column.name)) = .ok name) ∧
      ((∀ column ∈ file.layout, ∀ c ∈ column.name.toList, Text.Bmp.IsBmp c) →
        ∃ table, (Table.scan (ofString (joined lines)) none).1 = .ok table) ∧
      ∀ evidence table, (Table.scan (ofString (joined lines)) evidence).1 = .ok table →
        table.names.length = file.layout.length ∧
        table.lines.length = file.header.rows.toNat := by
  obtain ⟨named, width, length⟩ := shape_of_toCursor read
  obtain ⟨rows, rfl, count, widths⟩ := lines_eq_ok exported
  have names : cursor.names.length = file.layout.length := by rw [named, List.length_map]
  have positive := List.length_pos_iff.mpr columns
  have widths' : ∀ row ∈ cursor.names :: rows, row.length = file.layout.length :=
    List.forall_mem_cons.mpr ⟨names, fun row mem => (widths row mem).trans width⟩
  have seen : ∀ row ∈ cursor.names :: rows, row ≠ [] ∧ row ≠ [""] := by
    intro row mem
    have long := widths' row mem
    constructor
    · rintro rfl
      rw [List.length_nil] at long
      omega
    · rintro rfl
      exact (single long.symm).1 (List.mem_map.mpr ⟨_, mem, renderLine_empty⟩)
  have last : ∀ row ∈ rows.getLast?,
      ∃ byte ∈ ofString (renderLine row), isEndBlank byte = false := by
    intro row known
    by_cases alone : file.layout.length = 1
    · refine (single alone).2 _ ?_
      rw [List.map_cons, List.tail_cons, List.getLast?_map, Option.mem_def.mp known]
      rfl
    · have long := widths' row (List.mem_cons_of_mem _ (List.mem_of_getLast? known))
      exact ⟨comma, comma_mem_renderLine (by omega), by decide⟩
  obtain ⟨accepted, scanned⟩ := Table.scan_written _ rfl seen
    (fun row mem => (widths row mem).trans (width.trans names.symm)) last
  have readable : (∀ name ∈ cursor.names, ∃ read, columnName (ofString (render name)) = .ok read) ↔
      ∀ column ∈ file.layout, ∃ name, columnName (ofString (render column.name)) = .ok name := by
    rw [named, List.forall_mem_map]
  rw [readable] at accepted
  refine ⟨accepted, fun bmp => accepted.mpr fun column mem => exists_columnName (bmp column mem), ?_⟩
  intro evidence table same
  obtain ⟨sameNames, cells⟩ := scanned evidence table same
  have sameRows := congrArg List.length cells
  rw [List.length_map, List.length_map] at sameRows
  exact ⟨sameNames.trans names, sameRows.trans (count.trans length)⟩

/-- What a row file holds and exports, computed at once. -/
theorem exported_of_eq [Checksum] [CalendarText] (bytes : Bytes) (names : List String) (rows : Nat)
    (lines : List String)
    (known : (RowFile.ofBytes .passthrough bytes >>= fun file => file.toCursor.map fun cursor =>
      (file.layout.map fun column => column.name, file.header.rows.toNat, Csv.lines cursor)) =
        .ok (names, rows, .ok (), lines)) :
    ∃ file cursor, RowFile.ofBytes .passthrough bytes = .ok file ∧ file.toCursor = .ok cursor ∧
      Csv.lines cursor = (.ok (), lines) ∧ (file.layout.map fun column => column.name) = names ∧
      file.layout.length = names.length ∧ file.header.rows.toNat = rows := by
  obtain ⟨file, opened, known⟩ := Outcome.bind_eq_ok_iff.mp known
  obtain ⟨cursor, read, same⟩ := Outcome.map_eq_ok_iff.mp known
  obtain ⟨rfl, rest⟩ := Prod.mk.inj same
  obtain ⟨counted, exported⟩ := Prod.mk.inj rest
  exact ⟨file, cursor, opened, read, exported, rfl, (List.length_map _).symm, counted⟩

/-- Two columns and two rows, with a comma in one text and nothing in the other. -/
theorem scan_joined_number_and_text :
    let bytes : Bytes := [82, 80, 65, 75, 49, 10, 0, 0, 0, 0, 0, 0, 0, 0, 1, 0, 0, 0, 0, 0, 2, 0, 0, 0, 2, 0, 0, 0,
      1, 0, 0, 0, 0, 0, 0, 0, 2, 0, 0, 0, 0, 0, 0, 0, 1, 0, 0, 0, 0, 0, 0, 0, 24, 0, 0, 0, 2, 0,
      0, 0, 0, 0, 0, 0, 1, 0, 110, 1, 0, 0, 0, 0, 1, 0, 0, 0, 1, 0, 116, 13, 1, 0, 0, 0, 2, 0, 0,
      0, 0, 0, 5, 44, 250, 0, 88, 0, 0, 0, 0, 0, 0, 0, 0, 0, 0, 0, 0, 0, 0, 0, 4, 0, 0, 0, 4, 0,
      0, 0, 173, 252, 250, 122, 254, 93, 188, 187, 94, 0, 0, 0, 0, 0, 0, 0]
    ∃ file cursor lines table, RowFile.ofBytes .passthrough bytes = .ok file ∧
      file.toCursor = .ok cursor ∧ Csv.lines cursor = (.ok (), lines) ∧
      (Table.scan (ofString (joined lines)) none).1 = .ok table ∧
      table.names.length = 2 ∧ table.lines.length = 2 := by
  intro bytes
  obtain ⟨file, cursor, opened, read, exported, named, columns, counted⟩ :=
    exported_of_eq bytes ["n", "t"] 2 ["n,t", "5,\",\"", "-6,"] (by decide +kernel)
  have nonempty : file.layout ≠ [] := by
    rw [← List.length_pos_iff, columns]
    decide
  have several : file.layout.length ≠ 1 := by
    rw [columns]
    decide
  have bmp : ∀ column ∈ file.layout, ∀ c ∈ column.name.toList, Text.Bmp.IsBmp c := by
    intro column mem
    have name := List.mem_map_of_mem (f := fun column : Column => column.name) mem
    rw [named, List.mem_pair] at name
    rcases name with same | same <;> rw [same] <;> simp [Text.Bmp.IsBmp]
  obtain ⟨-, scanned, shape⟩ :=
    scan_joined read exported nonempty (fun alone => absurd alone several)
  obtain ⟨table, scanned⟩ := scanned bmp
  obtain ⟨names, rows⟩ := shape none table scanned
  exact ⟨file, cursor, _, table, opened, read, exported, scanned, names.trans columns,
    rows.trans counted⟩

/-- In a single column an empty text is lost, and a name past the Basic Multilingual Plane may not be
read. -/
theorem scan_joined_empty_text_and_astral_name :
    let empty : Bytes := [82, 80, 65, 75, 49, 10, 0, 0, 0, 0, 0, 0, 0, 0, 1, 0, 0, 0, 0, 0, 1, 0, 0, 0, 2, 0, 0, 0,
      1, 0, 0, 0, 0, 0, 0, 0, 2, 0, 0, 0, 0, 0, 0, 0, 1, 0, 0, 0, 0, 0, 0, 0, 12, 0, 0, 0, 1, 0,
      0, 0, 0, 0, 0, 0, 1, 0, 97, 13, 0, 0, 0, 0, 1, 0, 0, 0, 0, 0, 0, 120, 76, 0, 0, 0, 0, 0, 0,
      0, 0, 0, 0, 0, 0, 0, 0, 0, 2, 0, 0, 0, 2, 0, 0, 0, 192, 3, 191, 117, 141, 78, 251, 0, 80,
      0, 0, 0, 0, 0, 0, 0]
    let astral : Bytes := [82, 80, 65, 75, 49, 10, 0, 0, 0, 0, 0, 0, 0, 0, 1, 0, 0, 0, 0, 0, 1, 0, 0, 0, 2, 0, 0, 0,
      1, 0, 0, 0, 0, 0, 0, 0, 1, 0, 0, 0, 0, 0, 0, 0, 1, 0, 0, 0, 0, 0, 0, 0, 17, 0, 0, 0, 1, 0,
      0, 0, 0, 0, 0, 0, 6, 0, 195, 169, 240, 159, 152, 128, 13, 0, 0, 0, 0, 1, 0, 0, 0, 0, 0,
      120, 81, 0, 0, 0, 0, 0, 0, 0, 0, 0, 0, 0, 0, 0, 0, 0, 1, 0, 0, 0, 1, 0, 0, 0, 17, 205, 178,
      128, 100, 108, 240, 234, 84, 0, 0, 0, 0, 0, 0, 0]
    (∃ file cursor lines table, RowFile.ofBytes .passthrough empty = .ok file ∧
      file.toCursor = .ok cursor ∧ Csv.lines cursor = (.ok (), lines) ∧ file.layout.length = 1 ∧
      file.header.rows.toNat = 2 ∧ (Table.scan (ofString (joined lines)) none).1 = .ok table ∧
      table.lines.length = 1) ∧
    ∃ file cursor lines, RowFile.ofBytes .passthrough astral = .ok file ∧
      file.toCursor = .ok cursor ∧ Csv.lines cursor = (.ok (), lines) ∧ file.layout.length = 1 ∧
      (Table.scan (ofString (joined lines)) none).1 = .error (.invalidUtf8 2) := by
  intro empty astral
  constructor
  · obtain ⟨file, cursor, opened, read, exported, -, columns, counted⟩ :=
      exported_of_eq empty ["a"] 2 ["a", "", "x"] (by decide +kernel)
    have text : ofString (joined ["a", "", "x"]) = [97, 10, 10, 120, 10] := by decide +kernel
    have header : Table.header [97, 10, 10, 120, 10] =
        .ok (["a"], ⟨⟨[⟨0, 1⟩], 2⟩, [10, 120, 10], none⟩) := by decide +kernel
    have ending : contentEnd 2 [10, 120, 10] = 4 := by decide
    have width : ["a"].length = 1 := rfl
    have first : scanLines 1 4 2 [10, 120, 10] [] none = scanLines 1 4 5 [] [[⟨3, 4⟩]] none :=
      scanLines_cons (by decide) rfl rfl rfl
    have last : scanLines 1 4 5 [] [[⟨3, 4⟩]] none = (.ok [[⟨3, 4⟩]], none) :=
      scanLines_done (by decide) _ _
    have scanned : (Table.scan [97, 10, 10, 120, 10] none).1 =
        .ok ⟨[97, 10, 10, 120, 10], ["a"], [[⟨3, 4⟩]], none⟩ := by
      simp only [Table.scan, header, ending, width, first, last]
    exact ⟨file, cursor, _, _, opened, read, exported, columns, counted, text ▸ scanned, rfl⟩
  · obtain ⟨file, cursor, opened, read, exported, -, columns, -⟩ :=
      exported_of_eq astral ["é😀"] 1 ["é😀", "x"] (by decide +kernel)
    have refused : Table.header (ofString (joined ["é😀", "x"])) = .error (.invalidUtf8 2) := by
      decide +kernel
    refine ⟨file, cursor, _, opened, read, exported, columns, ?_⟩
    rw [Table.scan, refused]

end Shape

end RowStore.Csv
