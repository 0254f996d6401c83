import Mathlib
import RowStore.Proofs.Csv.Scanning

/-! Line breaks between the lines of a table.

Lines are laid out with runs of line breaks between them. How long a run is, and which line breaks
it has, moves the fields behind it and nothing else. A line is read as it would be on its own, so
that two sources with the same lines are scanned to the same table.
-/

namespace RowStore

/-- The error without the offset at which a line was looked for. -/
def Error.unplaced : Error → Error
  | .columnCountMismatch row _ expected found => .columnCountMismatch row 0 expected found
  | reason => reason

def Span.shifted (span : Span) (places : Nat) : Span := ⟨span.start + places, span.stop + places⟩

namespace Csv

/-- A line that has content, no line break and no escape that is still open behind it. Its quotes
may be open. -/
structure IsLine (line : Bytes) : Prop where
  nonempty : line ≠ []
  unbroken : ∀ byte ∈ line, isLineBreak byte = false
  closed : (line.foldl Quoting.step .plain).escaped = false

/-- Bytes that hold some lines and line breaks. There is a line break between any two lines; before
the first line and behind the last one there may be none. -/
inductive Laid : List Bytes → Bytes → Prop
  | none {breaks : Bytes} (only : ∀ byte ∈ breaks, isLineBreak byte = true) : Laid [] breaks
  | line {breaks line rest : Bytes} {lines : List Bytes}
      (only : ∀ byte ∈ breaks, isLineBreak byte = true) (isLine : IsLine line)
      (apart : ∀ byte ∈ rest.head?, isLineBreak byte = true) (more : Laid lines rest) :
      Laid (line :: lines) (breaks ++ (line ++ rest))

namespace LineScan

variable {scan : LineScan} {offset places : Nat} {byte : UInt8} {line rest : Bytes}

/-- The scan that has come as far some places further on. -/
def shifted (scan : LineScan) (places : Nat) : LineScan :=
  { scan with
    since := scan.since + places
    closed := scan.closed.map (·.shifted places) }

theorem shifted_content :
    (scan.shifted places).content byte = (scan.content byte).shifted places := by
  simp only [content, witness, shifted, List.length_map]

theorem shifted_close :
    (scan.shifted places).close (offset + places) = (scan.close offset).shifted places := by
  simp only [close, witness, shifted, List.length_map, List.map_cons, Span.shifted,
    Nat.add_sub_add_right]

theorem shifted_divide :
    (scan.shifted places).divide (offset + places) = (scan.divide offset).shifted places := by
  simp only [divide, shifted_close]
  simp only [shifted, Nat.add_right_comm]

/-- The same bytes are scanned alike wherever they stand. -/
theorem run_shifted (scan : LineScan) (offset places : Nat) (bytes : Bytes) :
    (scan.shifted places).run (offset + places) bytes =
      ((scan.run offset bytes).1.shifted places, (scan.run offset bytes).2.1 + places,
        (scan.run offset bytes).2.2) := by
  induction bytes generalizing scan offset with
  | nil => rw [run, run, shifted_close]
  | cons byte rest ih =>
      have quoting : (scan.shifted places).quoting = scan.quoting := rfl
      rw [run, run, quoting, shifted_content, shifted_divide, shifted_close, Nat.add_right_comm]
      split_ifs
      · exact ih (scan.content byte) (offset + 1)
      · exact ih (scan.divide offset) (offset + 1)
      · rfl
      · exact ih (scan.content byte) (offset + 1)

theorem step_of_divides (unescaped : ¬ scan.quoting.escaped = true)
    (divides : (decide (byte = comma) && scan.quoting.outside) = true) :
    scan.quoting.step byte = scan.quoting := by
  rw [Bool.and_eq_true, decide_eq_true_iff] at divides
  obtain ⟨rfl, -⟩ := divides
  rw [Quoting.step, if_neg unescaped]
  rfl

theorem add_length_cons (offset : Nat) (byte : UInt8) (bytes : Bytes) :
    offset + (byte :: bytes).length = offset + 1 + bytes.length := by
  rw [List.length_cons, Nat.add_right_comm, Nat.add_assoc]

/-- A line ends at the first line break behind it, whatever is open but an escape. -/
theorem run_append (scan : LineScan) (unbroken : ∀ byte ∈ line, isLineBreak byte = false)
    (closed : (line.foldl Quoting.step scan.quoting).escaped = false)
    (apart : ∀ byte ∈ rest.head?, isLineBreak byte = true) (offset : Nat) :
    scan.run offset (line ++ rest) = ((scan.run offset line).1,
      offset + line.length + (rest.take 1).length, rest.drop 1) := by
  induction line generalizing scan offset with
  | nil =>
      cases rest with
      | nil => rfl
      | cons byte rest =>
          have breaks := apart byte rfl
          have unescaped : ¬ scan.quoting.escaped = true := Bool.eq_false_iff.mp closed
          have content : ¬ (decide (byte = comma) && scan.quoting.outside) = true := by
            rw [Bool.and_eq_true, decide_eq_true_iff]
            rintro ⟨rfl, -⟩
            exact absurd breaks (by decide)
          rw [List.nil_append, run, run, if_neg unescaped, if_neg content, if_pos breaks]
          rfl
  | cons byte line ih =>
      obtain ⟨here, later⟩ := List.forall_mem_cons.mp unbroken
      rw [List.foldl_cons] at closed
      rw [List.cons_append, run, run, add_length_cons]
      split_ifs with escaped divides
      · exact ih (scan.content byte) later closed (offset + 1)
      · rw [step_of_divides escaped divides] at closed
        exact ih (scan.divide offset) later closed (offset + 1)
      · rw [here] at *
        contradiction
      · exact ih (scan.content byte) later closed (offset + 1)

/-- Fields are closed within the bytes that are scanned. -/
theorem stop_le_of_mem_run (scan : LineScan) (offset : Nat)
    (before : ∀ field ∈ scan.closed, field.stop ≤ offset) (bytes : Bytes) :
    ∀ field ∈ (scan.run offset bytes).1.closed, field.stop ≤ offset + bytes.length := by
  induction bytes generalizing scan offset with
  | nil => exact List.forall_mem_cons.mpr ⟨Nat.le_refl _, before⟩
  | cons byte rest ih =>
      have within : ∀ field ∈ scan.closed, field.stop ≤ offset + 1 := fun field mem =>
        Nat.le_succ_of_le (before field mem)
      have closed : ∀ field ∈ (scan.close offset).closed, field.stop ≤ offset + 1 :=
        List.forall_mem_cons.mpr ⟨Nat.le_succ _, within⟩
      rw [run, add_length_cons]
      split_ifs
      · exact ih (scan.content byte) _ within
      · exact ih (scan.divide offset) _ closed
      · exact fun field mem => (closed field mem).trans (Nat.le_add_right _ _)
      · exact ih (scan.content byte) _ within

end LineScan

section Fields

variable {bytes breaks line rest : Bytes} {lines : List Bytes} {offset places base : Nat}

/-- The fields of a line that stands on its own. -/
def fieldsOf (line : Bytes) : List Bytes :=
  ((LineScan.start 0 none).run 0 line).1.closed.reverse.map (slice line)

/-- The line behind some line breaks has the fields that it has on its own, where it stands. -/
theorem first?_append (only : ∀ byte ∈ breaks, isLineBreak byte = true) (isLine : IsLine line)
    (apart : ∀ byte ∈ rest.head?, isLineBreak byte = true) (offset : Nat) :
    Line.first? offset (breaks ++ (line ++ rest)) none = some ⟨⟨
      ((LineScan.start 0 none).run 0 line).1.closed.reverse.map
        (·.shifted (offset + breaks.length)),
      offset + breaks.length + line.length + (rest.take 1).length⟩, rest.drop 1, none⟩ := by
  obtain ⟨byte, others, head⟩ : ∃ byte others, line ++ rest = byte :: others :=
    List.exists_cons_of_ne_nil (List.append_ne_nil_of_left_ne_nil isLine.nonempty rest)
  have here : ¬ isLineBreak byte = true := by
    obtain ⟨first, others', rfl⟩ := List.exists_cons_of_ne_nil isLine.nonempty
    obtain ⟨rfl, -⟩ := List.cons.inj head
    exact Bool.eq_false_iff.mp (isLine.unbroken first List.mem_cons_self)
  have content : (breaks ++ (line ++ rest)).dropWhile isLineBreak = line ++ rest := by
    rw [List.dropWhile_append_of_pos only, head, List.dropWhile_cons_of_neg here]
  have skipped : (breaks ++ (line ++ rest)).takeWhile isLineBreak = breaks := by
    rw [List.takeWhile_append_of_pos only, head, List.takeWhile_cons_of_neg here, List.append_nil]
  have nonempty : ¬ (line ++ rest).isEmpty = true := by
    rw [head]
    exact Bool.false_ne_true
  generalize there : offset + breaks.length = origin
  have start : (LineScan.start 0 none).shifted origin = LineScan.start origin none := by
    simp only [LineScan.start, LineScan.shifted, Nat.zero_add, List.map_nil]
  have shifted := (LineScan.start 0 none).run_shifted 0 origin line
  rw [start, Nat.zero_add] at shifted
  have run := LineScan.run_append (LineScan.start origin none) isLine.unbroken isLine.closed apart
    origin
  rw [shifted] at run
  have unfed := congrArg (·.1.evidence) ((LineScan.start 0 none).run_plain 0 line)
  simp only [Line.first?_eq, content, skipped, there, if_neg nonempty, run, LineScan.line,
    LineScan.shifted, List.map_reverse]
  rw [Option.some.injEq, ReadLine.mk.injEq]
  exact ⟨rfl, rfl, unfed⟩

theorem slice_shifted {span : Span} (split : bytes.drop places = line ++ rest)
    (inside : span.stop ≤ line.length) : slice bytes (span.shifted places) = slice line span := by
  have length : (span.shifted places).length = span.length := Nat.add_sub_add_right ..
  have within : span.length ≤ (line.drop span.start).length := by
    rw [List.length_drop, Span.length]
    omega
  rw [slice, slice, length, Span.shifted, Nat.add_comm, ← List.drop_drop, split, List.drop_append,
    List.take_append_of_le_length within]

theorem Laid.drop_break (laid : Laid lines rest)
    (apart : ∀ byte ∈ rest.head?, isLineBreak byte = true) : Laid lines (rest.drop 1) := by
  cases laid with
  | none only => exact .none fun byte mem => only byte (List.mem_of_mem_drop mem)
  | @line breaks line rest lines only isLine apart' more =>
      cases breaks with
      | nil =>
          obtain ⟨byte, others, rfl⟩ := List.exists_cons_of_ne_nil isLine.nonempty
          have unbroken := isLine.unbroken byte List.mem_cons_self
          exact absurd (unbroken.symm.trans (apart byte rfl)) Bool.false_ne_true
      | cons byte breaks => exact .line (List.forall_mem_cons.mp only).2 isLine apart' more

/-- Content is content of a line. -/
theorem Laid.exists_content_iff (laid : Laid lines rest) :
    (∃ byte ∈ rest, isEndBlank byte = false) ↔
      ∃ line ∈ lines, ∃ byte ∈ line, isEndBlank byte = false := by
  have blank {breaks : Bytes} (only : ∀ byte ∈ breaks, isLineBreak byte = true) :
      ¬ ∃ byte ∈ breaks, isEndBlank byte = false := by
    rintro ⟨byte, mem, solid⟩
    rw [isEndBlank_of_isLineBreak (only byte mem)] at solid
    contradiction
  induction laid with
  | none only => simpa using blank only
  | line only isLine apart more ih =>
      simp only [List.mem_append, or_and_right, exists_or, blank only, false_or,
        List.exists_mem_cons_iff, ih]

/-- The first of the lines has the fields that it has on its own, and the others are behind it. -/
theorem first?_laid (laid : Laid (line :: lines) (bytes.drop offset))
    (evidence : Option (List Evidence)) :
    ∃ found, Line.first? offset (bytes.drop offset) evidence = some found ∧
      found.line.fields.map (slice bytes) = fieldsOf line ∧
      Laid lines found.rest := by
  generalize split : bytes.drop offset = ahead at laid
  cases laid with
  | @line breaks line rest lines only isLine apart more =>
      have plain := first?_append only isLine apart offset
      rw [Line.first?_none offset _ evidence, Option.map_eq_some_iff] at plain
      obtain ⟨found, first, same⟩ := plain
      obtain ⟨same, remains, -⟩ := ReadLine.mk.inj same
      refine ⟨found, first, ?_, remains ▸ more.drop_break apart⟩
      have stands : bytes.drop (offset + breaks.length) = line ++ rest := by
        rw [← List.drop_drop, split, List.drop_left]
      have within := (LineScan.start 0 none).stop_le_of_mem_run 0 (fun _ => nofun) line
      rw [same, fieldsOf, List.map_map]
      refine List.map_congr_left fun field mem => slice_shifted stands ?_
      exact Nat.zero_add line.length ▸ within field (List.mem_reverse.mp mem)

/-- The lines that are still ahead of a scan, which goes on while there is content behind `base`. -/
structure Ahead (bytes : Bytes) (base : Nat) (lines : List Bytes) (offset : Nat) : Prop where
  reached : base ≤ offset
  inside : offset ≤ bytes.length
  laid : Laid lines (bytes.drop offset)

theorem Ahead.lt_contentEnd_iff (ahead : Ahead bytes base lines offset) :
    offset < contentEnd base (bytes.drop base) ↔
      ∃ line ∈ lines, ∃ byte ∈ line, isEndBlank byte = false := by
  rw [← ahead.laid.exists_content_iff]
  constructor
  · intro content
    obtain ⟨byte, found, solid⟩ := exists_of_lt_contentEnd (ahead.reached.trans_lt content)
    have last :
        (bytes.drop offset)[contentEnd base (bytes.drop base) - 1 - offset]? = some byte := by
      rw [List.getElem?_drop, Nat.add_sub_cancel' (by omega), found]
    exact ⟨byte, List.mem_of_getElem? last, solid⟩
  · rintro ⟨byte, mem, solid⟩
    exact lt_contentEnd mem solid

/-- A line is read, and with it its own evidence. -/
theorem Ahead.next (ahead : Ahead bytes base (line :: lines) offset)
    (evidence : Option (List Evidence)) :
    ∃ found, Line.first? offset (bytes.drop offset) (evidence.map fun _ => []) = some found ∧
      found.line.fields.map (slice bytes) = fieldsOf line ∧
      found.evidence = evidence.map (fun _ => (fieldsOf line).map Evidence.ofField) ∧
      found.rest = bytes.drop found.line.stop ∧ Ahead bytes base lines found.line.stop := by
  obtain ⟨found, first, fields, laid⟩ := first?_laid ahead.laid (evidence.map fun _ => [])
  obtain ⟨rest, inside⟩ := Line.rest_of_first? ahead.inside first
  have after := (Line.foundAt_of_first? first).lt_stop
  refine ⟨found, first, fields, ?_, rest, ahead.reached.trans after.le, inside, rest ▸ laid⟩
  cases evidence with
  | none =>
      have unfed := Line.first?_none offset (bytes.drop offset) none
      rw [Option.map_none] at first
      rw [first, Option.map_some, Option.some.injEq] at unfed
      rw [unfed]
      rfl
  | some prior =>
      rw [Line.evidence_of_first? ahead.inside first, LineScan.fieldsEvidence, ← fields,
        List.map_map]
      rfl

/-- Only blank lines are left, which are no rows. -/
theorem Ahead.scanLines_done (ahead : Ahead bytes base lines offset)
    (blank : ¬ ∃ line ∈ lines, ∃ byte ∈ line, isEndBlank byte = false) (width : Nat)
    (rows : List (List Span)) (evidence : Option (List Evidence)) :
    scanLines width (contentEnd base (bytes.drop base)) offset (bytes.drop offset) rows evidence =
      (.ok rows.reverse, evidence) := by
  rw [← ahead.lt_contentEnd_iff] at blank
  exact Csv.scanLines_done (not_lt.mp blank) _ _

end Fields

section Scans

variable {left right : Bytes} {base base' offset offset' : Nat} {rows rows' : List (List Span)}
  {lines : List Bytes}

/-- What a scan comes to, without the places of what it has read. -/
def seenBy {α β : Type} (view : α → β) (result : Except Error α × Option (List Evidence)) :
    Except Error β × Option (List Evidence) :=
  ((result.1.map view).mapError Error.unplaced, result.2)

/-- The bytes of the fields of some lines. -/
def cellsOf (bytes : Bytes) (lines : List (List Span)) : List (List Bytes) :=
  lines.map (List.map (slice bytes))

/-- Two scans that have read the same fields go through the same lines alike. -/
theorem scanLines_alike (width : Nat) (here : Ahead left base lines offset)
    (there : Ahead right base' lines offset') (same : cellsOf left rows = cellsOf right rows')
    (evidence : Option (List Evidence)) :
    seenBy (cellsOf left) (scanLines width (contentEnd base (left.drop base)) offset
        (left.drop offset) rows evidence) =
      seenBy (cellsOf right) (scanLines width (contentEnd base' (right.drop base')) offset'
        (right.drop offset') rows' evidence) := by
  have reversed {rows rows' : List (List Span)} (same : cellsOf left rows = cellsOf right rows') :
      cellsOf left rows.reverse = cellsOf right rows'.reverse := by
    rw [cellsOf, cellsOf, List.map_reverse, List.map_reverse]
    exact congrArg List.reverse same
  -- Each scan has the same lines ahead, so that one line of each is read at every step.
  induction lines generalizing offset offset' rows rows' evidence with
  | nil =>
      rw [here.scanLines_done (by simp), there.scanLines_done (by simp)]
      simp only [seenBy, Except.map, reversed same]
  | cons line lines ih =>
      by_cases content : ∃ ahead ∈ line :: lines, ∃ byte ∈ ahead, isEndBlank byte = false
      · obtain ⟨found, first, fields, fed, rest, next⟩ := here.next evidence
        obtain ⟨found', first', fields', fed', rest', next'⟩ := there.next evidence
        have width' : found.line.fields.length = found'.line.fields.length := by
          rw [← List.length_map (slice left), fields, ← fields', List.length_map]
        have count : rows.length = rows'.length := by
          rw [← List.length_map (List.map (slice left)), ← cellsOf, same, cellsOf, List.length_map]
        rw [scanLines_read width rows (here.lt_contentEnd_iff.mpr content) first,
          scanLines_read width rows' (there.lt_contentEnd_iff.mpr content) first', fed, fed',
          width']
        split_ifs with mismatch
        · simp only [seenBy, Except.map, Except.mapError, Error.unplaced, count]
        · generalize evidence.map (fun _ => (fieldsOf line).map Evidence.ofField) = added
          cases addEvidence evidence added with
          | error reason => rfl
          | ok sum =>
              rw [rest, rest']
              refine ih next next' ?_ sum
              rw [cellsOf, cellsOf, List.map_cons, List.map_cons, fields, fields']
              exact congrArg _ same
      -- Lines that are blank to the end are cut off, whatever line breaks stand between them.
      · rw [here.scanLines_done content, there.scanLines_done content]
        simp only [seenBy, Except.map, reversed same]

/-- What a table holds, wherever it stands. -/
structure Contents where
  names : List String
  cells : List (List Bytes)
  deduced : Option Layout
deriving Repr, DecidableEq

def Table.contents (table : Table) : Contents :=
  ⟨table.names, cellsOf table.bytes table.lines, table.deduced⟩

/-- Behind the header line, the lines that follow it are read. -/
theorem Table.header_laid {line bytes : Bytes} (laid : Laid (line :: lines) bytes) :
    ∃ found, Table.header bytes =
        ((fieldsOf line).mapM columnName).map (fun names => (names, found)) ∧
      found.rest = bytes.drop found.line.stop ∧
      Ahead bytes found.line.stop lines found.line.stop := by
  have whole : Ahead bytes 0 (line :: lines) 0 := ⟨Nat.le_refl _, Nat.zero_le _, laid⟩
  obtain ⟨found, first, fields, -, rest, next⟩ := whole.next none
  rw [List.drop_zero, Option.map_none] at first
  refine ⟨found, ?_, rest, Nat.le_refl _, next.inside, next.laid⟩
  rw [Table.header_eq, first, ← fields, ← columnNames_eq]

/-- A source without a line is refused, wherever its line breaks end. -/
theorem Table.scan_of_laid_nil {bytes : Bytes} (laid : Laid [] bytes)
    (evidence : Option (List Evidence)) :
    Table.scan bytes evidence = (.error (.noFields 0), evidence) := by
  cases laid with
  | none only => rw [Table.scan, Table.header_eq, (Line.first?_eq_none_iff 0 none).mpr only]

/-- Behind the same names, tables are alike as far as their lines are. -/
theorem Table.scan_alike {names : List String} {found found' : ReadLine}
    (header : Table.header left = .ok (names, found))
    (header' : Table.header right = .ok (names, found')) (evidence : Option (List Evidence))
    (alike : seenBy (cellsOf left) (scanLines names.length
        (contentEnd found.line.stop found.rest) found.line.stop found.rest [] evidence) =
      seenBy (cellsOf right) (scanLines names.length
        (contentEnd found'.line.stop found'.rest) found'.line.stop found'.rest [] evidence)) :
    seenBy Table.contents (Table.scan left evidence) =
      seenBy Table.contents (Table.scan right evidence) := by
  rw [Table.scan, Table.scan, header, header']
  dsimp only
  generalize scanLines names.length (contentEnd found.line.stop found.rest) found.line.stop
    found.rest [] evidence = result at alike ⊢
  generalize scanLines names.length (contentEnd found'.line.stop found'.rest) found'.line.stop
    found'.rest [] evidence = result' at alike ⊢
  obtain ⟨result, final⟩ := result
  obtain ⟨result', final'⟩ := result'
  obtain ⟨outcome, same⟩ := Prod.mk.inj alike
  obtain rfl : final = final' := same
  rcases result with reason | lines <;> rcases result' with reason' | lines'
  · have placed : reason.unplaced = reason'.unplaced := Except.error.inj outcome
    simp only [seenBy, Except.map, Except.mapError, placed]
  · cases outcome
  · cases outcome
  · have cells : cellsOf left lines = cellsOf right lines' := Except.ok.inj outcome
    cases final with
    | none => simp only [seenBy, Except.map, Table.contents, cells]
    | some summed =>
        dsimp only
        cases deducedLayout names (Table.fitEvidence names summed) with
        | error reason => rfl
        | ok layout => simp only [seenBy, Except.map, Table.contents, cells]

/-- Line breaks do not matter. Two sources that hold the same lines are scanned to tables with the
same names, the same fields and the same deduced columns, or both are refused for the same reason,
of which only the offset of the line may differ. The evidence is the same in either case. -/
theorem scan_laid (laid : Laid lines left) (laid' : Laid lines right)
    (evidence : Option (List Evidence)) :
    seenBy Table.contents (Table.scan left evidence) =
      seenBy Table.contents (Table.scan right evidence) := by
  cases lines with
  | nil => rw [Table.scan_of_laid_nil laid, Table.scan_of_laid_nil laid']
  | cons line lines =>
      obtain ⟨found, header, rest, ahead⟩ := Table.header_laid laid
      obtain ⟨found', header', rest', ahead'⟩ := Table.header_laid laid'
      cases named : (fieldsOf line).mapM columnName with
      | error reason =>
          rw [named] at header header'
          rw [Table.scan, Table.scan, header, header']
          rfl
      | ok names =>
          rw [named] at header header'
          have none : cellsOf left [] = cellsOf right [] := rfl
          have alike := scanLines_alike names.length ahead ahead' none evidence
          rw [← rest, ← rest'] at alike
          exact Table.scan_alike header header' evidence alike

/-- A quote that is left open at the end of a line, and no line break behind the last line or
several. -/
theorem scan_laid_open_quote :
    let lines : List Bytes := [[97, 44, 39, 98], [55, 44, 56]]
    let left : Bytes := [97, 44, 39, 98, 10, 55, 44, 56]
    let right : Bytes := [13, 97, 44, 39, 98, 13, 10, 10, 55, 44, 56, 13, 10]
    Laid lines left ∧ Laid lines right ∧ seenBy Table.contents (Table.scan right none) =
      (.ok ⟨["a", "'b"], [[[55], [56]]], none⟩, none) := by
  intro lines left right
  have first : IsLine [97, 44, 39, 98] := by constructor <;> decide +kernel
  have second : IsLine [55, 44, 56] := by constructor <;> decide +kernel
  have laid : Laid lines left := by
    refine @Laid.line [] _ [10, 55, 44, 56] _ ?_ first ?_
      (@Laid.line [10] _ [] _ ?_ second ?_ (.none ?_)) <;> decide +kernel
  have laid' : Laid lines right := by
    refine @Laid.line [13] _ [13, 10, 10, 55, 44, 56, 13, 10] _ ?_ first ?_
      (@Laid.line [13, 10, 10] _ [13, 10] _ ?_ second ?_ (.none ?_)) <;> decide +kernel
  have header : Table.header left =
      .ok (["a", "'b"], ⟨⟨[⟨0, 1⟩, ⟨2, 4⟩], 5⟩, [55, 44, 56], none⟩) := by
    decide +kernel
  have ending : contentEnd 5 [55, 44, 56] = 8 := by decide
  have row : scanLines 2 8 5 [55, 44, 56] [] none = scanLines 2 8 8 [] [[⟨5, 6⟩, ⟨7, 8⟩]] none :=
    scanLines_cons (by decide) rfl rfl rfl
  have done : scanLines 2 8 8 [] [[⟨5, 6⟩, ⟨7, 8⟩]] none = (.ok [[⟨5, 6⟩, ⟨7, 8⟩]], none) :=
    scanLines_done (by decide) _ _
  have width : ["a", "'b"].length = 2 := rfl
  have scanned : Table.scan left none =
      (.ok ⟨left, ["a", "'b"], [[⟨5, 6⟩, ⟨7, 8⟩]], none⟩, none) := by
    simp only [Table.scan, header, ending, width, row, done]
  refine ⟨laid, laid', ?_⟩
  rw [← scan_laid laid laid', scanned]
  rfl

end Scans

end Csv

end RowStore
