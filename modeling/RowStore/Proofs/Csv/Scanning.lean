import Mathlib
import RowStore.Proofs.Csv.Roles
import RowStore.Proofs.Row.Layout
import RowStore.Proofs.Text.Bmp

/-! Scans of whole tables.

A scan reads the header line and then every line up to the end of the content, or up to the first
one that has another number of fields than the header. There is always a line to read while there is
content, so that only a header line can be missing.
-/

namespace RowStore.Csv

section Header

variable {bytes field : Bytes} {fields : List Span} {names : List String} {found : ReadLine}
  {reason : Error}

theorem columnName_eq_error (refused : columnName field = .error reason) :
    ∃ offset, reason = .invalidUtf8 offset := by
  rw [columnName] at refused
  cases read : Text.Bmp.decode field with
  | ok chars => rw [read] at refused; cases refused
  | error other =>
      rw [read] at refused
      cases refused
      exact Text.Bmp.decode_eq_error read

theorem columnNames_eq (bytes : Bytes) (fields : List Span) :
    columnNames bytes fields = (fields.map (slice bytes)).mapM columnName := by
  rw [columnNames, List.mapM_map]
  rfl

theorem length_columnNames (named : columnNames bytes fields = .ok names) :
    names.length = fields.length :=
  (Outcome.mapM_eq_ok_iff.mp named).length_eq.symm

theorem Line.first?_eq_none_iff (offset : Nat) (evidence : Option (List Evidence)) :
    Line.first? offset bytes evidence = none ↔ ∀ byte ∈ bytes, isLineBreak byte = true := by
  rw [← List.dropWhile_eq_nil_iff, Line.first?_eq]
  cases content : bytes.dropWhile isLineBreak with
  | nil => simp
  | cons byte rest => simp

theorem Table.header_eq :
    Table.header bytes = match Line.first? 0 bytes none with
      | none => .error (.noFields 0)
      | some found => (columnNames bytes found.line.fields).map fun names => (names, found) := by
  rw [Table.header, Line.parse_zero]
  cases Line.first? 0 bytes none with
  | none => rfl
  | some found => cases columnNames bytes found.line.fields <;> rfl

/-- There are as many names as the header line has fields. -/
theorem Table.header_eq_ok (read : Table.header bytes = .ok (names, found)) :
    Line.first? 0 bytes none = some found ∧ names.length = found.line.fields.length := by
  rw [Table.header_eq] at read
  cases first : Line.first? 0 bytes none with
  | none => rw [first] at read; cases read
  | some line =>
      rw [first] at read
      obtain ⟨names', named, same⟩ := Outcome.map_eq_ok_iff.mp read
      obtain ⟨rfl, rfl⟩ := Prod.mk.inj same
      exact ⟨rfl, length_columnNames named⟩

/-- The header line is missing when there are only line breaks, and else it is its names that are
refused. -/
theorem Table.header_eq_error (refused : Table.header bytes = .error reason) :
    (reason = .noFields 0 ∧ ∀ byte ∈ bytes, isLineBreak byte = true) ∨
      ((∃ offset, reason = .invalidUtf8 offset) ∧ ¬ ∀ byte ∈ bytes, isLineBreak byte = true) := by
  rw [← Line.first?_eq_none_iff 0 none]
  rw [Table.header_eq] at refused
  cases first : Line.first? 0 bytes none with
  | none =>
      rw [first] at refused
      cases refused
      exact .inl ⟨rfl, rfl⟩
  | some line =>
      rw [first] at refused
      cases named : columnNames bytes line.line.fields with
      | ok names => simp only [named] at refused; cases refused
      | error other =>
          simp only [named] at refused
          cases refused
          obtain ⟨span, -, failed⟩ := Outcome.exists_of_mapM_eq_error named
          exact .inr ⟨columnName_eq_error failed, by simp⟩

end Header

section Scan

open Line (Follow FoundAt)

variable {bytes : Bytes} {names : List String} {found : ReadLine}

theorem Table.scan_of_refused {evidence : Option (List Evidence)} {reason : Error}
    (read : Table.header bytes = .ok (names, found))
    (refused : (scanLines names.length (contentEnd found.line.stop found.rest) found.line.stop
      found.rest [] evidence).1 = .error reason) :
    (Table.scan bytes evidence).1 = .error reason := by
  rw [Table.scan, read]
  cases scanned : scanLines names.length (contentEnd found.line.stop found.rest) found.line.stop
      found.rest [] evidence with
  | mk result sum =>
      rw [scanned] at refused
      obtain rfl : result = .error reason := refused
      simp only [scanned]

/-- Once the lines are read, the table has them, unless the deduced columns do not fit in a row. -/
theorem Table.scan_of_lines {evidence sum : Option (List Evidence)} {lines : List (List Span)}
    (read : Table.header bytes = .ok (names, found))
    (scanned : scanLines names.length (contentEnd found.line.stop found.rest) found.line.stop
      found.rest [] evidence = (.ok lines, sum)) :
    (∃ deduced, (Table.scan bytes evidence).1 = .ok ⟨bytes, names, lines, deduced⟩) ∨
      sum ≠ none ∧
        ∃ name flaw, (Table.scan bytes evidence).1 = .error (.invalidDescriptor name flaw) := by
  rw [Table.scan, read]
  simp only [scanned]
  cases sum with
  | none => exact .inl ⟨none, rfl⟩
  | some collected =>
      cases placed : deducedLayout names (Table.fitEvidence names collected) with
      | ok layout => exact .inl ⟨some layout, by simp only [placed]⟩
      | error other =>
          obtain ⟨-, request, -, -, -, -, rfl⟩ := Layout.place_eq_error_iff.mp placed
          exact .inr ⟨Option.some_ne_none _, request.1, .layoutTooLong, by simp only [placed]⟩

/-- Lines of the right width up to the end of the content are the rows of the table. Without evidence,
nothing else can stop the scan. -/
theorem Table.scan_of_follow {lines : List Line} {behind : Nat}
    (read : Table.header bytes = .ok (names, found))
    (follow : Follow bytes (contentEnd found.line.stop found.rest) found.line.stop lines behind)
    (widths : ∀ line ∈ lines, line.fields.length = names.length)
    (above : contentEnd found.line.stop found.rest ≤ behind) (evidence : Option (List Evidence)) :
    (∃ deduced, (Table.scan bytes evidence).1 = .ok ⟨bytes, names, lines.map Line.fields, deduced⟩) ∨
      evidence ≠ none ∧ ∃ reason, (Table.scan bytes evidence).1 = .error reason ∧
        ∀ start, reason ≠ .noFields start := by
  obtain ⟨rest, inside⟩ := Table.rest_of_header read
  rcases scanLines_follow follow inside widths [] evidence with ⟨sum, same, kept⟩ | ⟨trapped, full⟩
  · rw [← rest, scanLines_done above, List.append_nil, List.reverse_reverse] at same
    rcases Table.scan_of_lines read same with ⟨deduced, scanned⟩ | ⟨collected, name, flaw, refused⟩
    · exact .inl ⟨deduced, scanned⟩
    · exact .inr ⟨fun absent => collected (kept absent), _, refused, by simp⟩
  · rw [← rest] at trapped
    refine .inr ⟨?_, _, Table.scan_of_refused read trapped, by simp⟩
    rintro rfl
    exact full fun file absent => by cases absent

/-- The first line of another width is refused, with the number of rows before it. -/
theorem Table.scan_of_mismatch {lines : List Line} {line : Line} {behind : Nat}
    (read : Table.header bytes = .ok (names, found))
    (follow : Follow bytes (contentEnd found.line.stop found.rest) found.line.stop lines behind)
    (widths : ∀ line ∈ lines, line.fields.length = names.length)
    (content : behind < contentEnd found.line.stop found.rest) (there : FoundAt bytes behind line)
    (other : line.fields.length ≠ names.length) (evidence : Option (List Evidence)) :
    (Table.scan bytes evidence).1 = .error (.columnCountMismatch lines.length behind names.length
        line.fields.length) ∨
      ((Table.scan bytes evidence).1 = .error (.trap .overflow) ∧ ¬ HasRoom evidence lines.length) := by
  obtain ⟨rest, inside⟩ := Table.rest_of_header read
  rcases scanLines_follow follow inside widths [] evidence with ⟨sum, same, -⟩ | ⟨trapped, full⟩
  · refine .inl (Table.scan_of_refused read ?_)
    have rows : ((lines.map Line.fields).reverse ++ []).length = lines.length := by simp
    rw [← rest] at same
    rw [same, scanLines_mismatch content there other, rows]
  · rw [← rest] at trapped
    exact .inr ⟨Table.scan_of_refused read trapped, full⟩

/-- What a scan of a table with a header line comes to. -/
theorem Table.scan_outcome (read : Table.header bytes = .ok (names, found))
    (evidence : Option (List Evidence)) :
    (∃ lines behind deduced,
        Follow bytes (contentEnd found.line.stop found.rest) found.line.stop lines behind ∧
        (∀ line ∈ lines, line.fields.length = names.length) ∧
        contentEnd found.line.stop found.rest ≤ behind ∧
        (Table.scan bytes evidence).1 = .ok ⟨bytes, names, lines.map Line.fields, deduced⟩) ∨
      ∃ reason, (Table.scan bytes evidence).1 = .error reason ∧ ∀ start, reason ≠ .noFields start := by
  obtain ⟨rest, inside⟩ := Table.rest_of_header read
  obtain ⟨lines, behind, follow, widths, ending⟩ :=
    Line.exists_follow names.length inside (Nat.le_refl _)
  rw [← rest] at follow ending
  rcases ending with above | ⟨content, line, there, other⟩
  · rcases Table.scan_of_follow read follow widths above evidence with
      ⟨deduced, scanned⟩ | ⟨-, refused⟩
    · exact .inl ⟨lines, behind, deduced, follow, widths, above, scanned⟩
    · exact .inr refused
  · rcases Table.scan_of_mismatch read follow widths content there other evidence with
      refused | ⟨trapped, -⟩
    · exact .inr ⟨_, refused, by simp⟩
    · exact .inr ⟨_, trapped, by simp⟩

/-- Only a header line can be missing. -/
theorem Table.scan_noFields_iff {evidence : Option (List Evidence)} {start : Int} :
    (Table.scan bytes evidence).1 = .error (.noFields start) ↔
      start = 0 ∧ ∀ byte ∈ bytes, isLineBreak byte = true := by
  cases read : Table.header bytes with
  | error reason =>
      have same : (Table.scan bytes evidence).1 = .error reason := by rw [Table.scan, read]
      rw [same]
      rcases Table.header_eq_error read with ⟨rfl, breaks⟩ | ⟨⟨offset, rfl⟩, content⟩
      · rw [Except.error.injEq, Error.noFields.injEq, and_iff_left breaks, eq_comm]
      · simp only [content, and_false, Except.error.injEq, reduceCtorEq]
  | ok header =>
      obtain ⟨names, found⟩ := header
      have content : ¬ ∀ byte ∈ bytes, isLineBreak byte = true := by
        rw [← Line.first?_eq_none_iff 0 none, (Table.header_eq_ok read).1]
        simp
      simp only [content, and_false, iff_false]
      rcases Table.scan_outcome read evidence with
        ⟨lines, behind, deduced, -, -, -, same⟩ | ⟨reason, same, other⟩
      · rw [same]
        intro absurd
        cases absurd
      · rw [same, Except.error.injEq]
        exact other start

/-- A scan loses and duplicates nothing. The lines that it reads follow one another, each behind
where the one before has ended, and only a header line can be missing. Once there is a table, every
byte behind its header line has exactly one role in it, and its rows have a field for each column.
The first line with another number of fields is refused with the number of rows before it and where
the line before it ends, unless the counts of a column have run over on the way. -/
theorem Table.scan_exact (bytes : Bytes) (evidence : Option (List Evidence)) :
    (∀ start, (Table.scan bytes evidence).1 = .error (.noFields start) ↔
      start = 0 ∧ ∀ byte ∈ bytes, isLineBreak byte = true) ∧
    (∀ names found, Table.header bytes = .ok (names, found) → ∀ lines behind,
      Follow bytes (contentEnd found.line.stop found.rest) found.line.stop lines behind →
        (found.line.stop :: lines.map Line.stop).IsChain (· < ·) ∧
        (found.line.stop :: lines.map Line.stop).getLast? = some behind ∧ behind ≤ bytes.length ∧
        ∀ line, (∀ before ∈ lines, before.fields.length = names.length) →
          behind < contentEnd found.line.stop found.rest → FoundAt bytes behind line →
          line.fields.length ≠ names.length →
            (Table.scan bytes evidence).1 = .error (.columnCountMismatch lines.length behind
              names.length line.fields.length) ∨
            ((Table.scan bytes evidence).1 = .error (.trap .overflow) ∧
              ¬ HasRoom evidence lines.length)) ∧
    ∀ table, (Table.scan bytes evidence).1 = .ok table →
      ∃ found lines behind, Table.header bytes = .ok (table.names, found) ∧
        Follow bytes (contentEnd found.line.stop found.rest) found.line.stop lines behind ∧
        contentEnd found.line.stop found.rest ≤ behind ∧ table.lines = lines.map Line.fields ∧
        (∀ fields ∈ table.lines, fields.length = found.line.fields.length) ∧
        ∀ offset, found.line.stop ≤ offset → offset < bytes.length →
          ∃! role, Role.Fits bytes found.line.stop table.lines offset role := by
  refine ⟨fun start => Table.scan_noFields_iff, ?_, ?_⟩
  · intro names found read lines behind follow
    obtain ⟨rest, inside⟩ := Table.rest_of_header read
    refine ⟨follow.isChain, follow.getLast?_stop, follow.behind_le inside, ?_⟩
    intro line widths content there other
    exact Table.scan_of_mismatch read follow widths content there other evidence
  · intro table scanned
    cases read : Table.header bytes with
    | error reason =>
        rw [Table.scan, read] at scanned
        cases scanned
    | ok header =>
        obtain ⟨names, found⟩ := header
        obtain ⟨rest, inside⟩ := Table.rest_of_header read
        obtain ⟨lines, behind, deduced, follow, widths, above, same⟩ | ⟨reason, same, -⟩ :=
          Table.scan_outcome read evidence
        · obtain rfl := Except.ok.inj (scanned.symm.trans same)
          refine ⟨found, lines, behind, rfl, follow, above, rfl, ?_, ?_⟩
          · intro fields mem
            obtain ⟨line, known, rfl⟩ := List.mem_map.mp mem
            rw [widths line known, (Table.header_eq_ok read).2]
          · intro offset after before
            refine existsUnique_role follow above ?_ (Nat.le_refl _) ?_ after before
            · intro place byte behind here
              rw [rest] at behind
              exact isEndBlank_of_contentEnd_le behind here
            · intro place byte lower upper
              omega
        · rw [scanned] at same
          cases same

/-- A row that is too short, and a table with a blank line and blanks at its end. -/
theorem Table.scan_exact_short_and_blank :
    let short : Bytes := [97, 44, 98, 44, 99, 10, 49, 44, 50, 44, 51, 10, 52, 44, 53, 10]
    let blank : Bytes := [97, 10, 10, 120, 10, 32]
    (Table.scan short none).1 = .error (.columnCountMismatch 1 12 3 2) ∧
      (∃! role, Role.Fits blank 2 [[⟨3, 4⟩]] 2 role) ∧
      ∃! role, Role.Fits blank 2 [[⟨3, 4⟩]] 3 role := by
  intro short blank
  constructor
  · have read : Table.header short = .ok (["a", "b", "c"],
        ⟨⟨[⟨0, 1⟩, ⟨2, 3⟩, ⟨4, 5⟩], 6⟩, [49, 44, 50, 44, 51, 10, 52, 44, 53, 10], none⟩) := by
      decide +kernel
    have ending : contentEnd 6 [49, 44, 50, 44, 51, 10, 52, 44, 53, 10] = 15 := by decide
    have whole : FoundAt short 6 ⟨[⟨6, 7⟩, ⟨8, 9⟩, ⟨10, 11⟩], 12⟩ :=
      Line.foundAt_of_first?
        (show Line.first? 6 (short.drop 6) none = some ⟨_, [52, 44, 53, 10], none⟩ by decide)
    have cut : FoundAt short 12 ⟨[⟨12, 13⟩, ⟨14, 15⟩], 16⟩ :=
      Line.foundAt_of_first? (show Line.first? 12 (short.drop 12) none = some ⟨_, [], none⟩ by decide)
    obtain ⟨-, lines, -⟩ := Table.scan_exact short none
    obtain ⟨-, -, -, refused⟩ := lines _ _ read [⟨[⟨6, 7⟩, ⟨8, 9⟩, ⟨10, 11⟩], 12⟩] 12
      (by rw [ending]; exact .next (by decide) whole (.done 12))
    rcases refused _ (by decide) (by rw [ending]; decide) cut (by decide) with same | ⟨-, full⟩
    · exact same
    · exact absurd (fun file absent => by cases absent) full
  · have read : Table.header blank = .ok (["a"], ⟨⟨[⟨0, 1⟩], 2⟩, [10, 120, 10, 32], none⟩) := by
      decide +kernel
    have ending : contentEnd 2 [10, 120, 10, 32] = 4 := by decide
    have first : scanLines 1 4 2 [10, 120, 10, 32] [] none = scanLines 1 4 5 [32] [[⟨3, 4⟩]] none :=
      scanLines_cons (by decide) rfl rfl rfl
    have last : scanLines 1 4 5 [32] [[⟨3, 4⟩]] none = (.ok [[⟨3, 4⟩]], none) :=
      scanLines_done (by decide) _ _
    have scanned : (Table.scan blank none).1 = .ok ⟨blank, ["a"], [[⟨3, 4⟩]], none⟩ := by
      have width : ["a"].length = 1 := rfl
      simp only [Table.scan, read, ending, width, first, last]
    obtain ⟨-, -, tables⟩ := Table.scan_exact blank none
    obtain ⟨found, -, -, read', -, -, -, -, roles⟩ := tables _ scanned
    obtain ⟨-, rfl⟩ := Prod.mk.inj (Except.ok.inj (read.symm.trans read'))
    exact ⟨roles 2 (by decide) (by decide), roles 3 (by decide) (by decide)⟩

end Scan

end RowStore.Csv
