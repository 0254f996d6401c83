import Mathlib
import RowStore.Csv.Table
import RowStore.Proofs.Evidence.Merge

/-! Evidence collected while a table is scanned.

A scan finds the same lines with evidence and without. The evidence of a line is that of its fields,
one by one, and that of the table reserves room for every field of every line.
-/

namespace RowStore.Csv

namespace LineScan

variable {bytes : Bytes} {offset : Nat} {byte : UInt8} {scan : LineScan} {fields : List Span}
  {prior evidence : List Evidence}

section Plain

/-- The scan without its evidence. -/
def plain (scan : LineScan) : LineScan := { scan with evidence := none }

/-- Where a scan goes does not depend on the evidence. -/
theorem run_plain (scan : LineScan) (offset : Nat) (bytes : Bytes) :
    scan.plain.run offset bytes =
      ((scan.run offset bytes).1.plain, (scan.run offset bytes).2) := by
  induction bytes generalizing scan offset with
  | nil => rfl
  | cons byte rest ih =>
      have quoting : scan.plain.quoting = scan.quoting := rfl
      rw [run, run, quoting]
      split_ifs
      · exact ih (scan.content byte) (offset + 1)
      · exact ih (scan.divide offset) (offset + 1)
      · rfl
      · exact ih (scan.content byte) (offset + 1)

end Plain

section Position

theorem run_rest (scan : LineScan) (inside : offset ≤ bytes.length) :
    (scan.run offset (bytes.drop offset)).2.2 =
        bytes.drop (scan.run offset (bytes.drop offset)).2.1 ∧
      (scan.run offset (bytes.drop offset)).2.1 ≤ bytes.length := by
  generalize remains : bytes.drop offset = rest
  induction rest generalizing scan offset with
  | nil => exact ⟨remains.symm, inside⟩
  | cons byte rest ih =>
      have below : offset < bytes.length := by
        by_contra above
        rw [List.drop_eq_nil_of_le (not_lt.mp above)] at remains
        contradiction
      have next : bytes.drop (offset + 1) = rest := by
        rw [← List.tail_drop, remains, List.tail_cons]
      rw [run]
      split_ifs
      · exact ih (scan.content byte) below next
      · exact ih (scan.divide offset) below next
      · exact ⟨next.symm, below⟩
      · exact ih (scan.content byte) below next

end Position

section Fields

open Evidence (known)

theorem slice_succ {since : Nat} (opened : since ≤ offset) (found : bytes[offset]? = some byte) :
    slice bytes ⟨since, offset + 1⟩ = slice bytes ⟨since, offset⟩ ++ [byte] := by
  have position : (bytes.drop since)[offset - since]? = some byte := by
    rw [List.getElem?_drop, Nat.add_sub_cancel' opened, found]
  simp only [slice, Span.length]
  rw [Nat.succ_sub opened, List.take_add_one, position]
  rfl

theorem length_slice {span : Span} (inside : span.stop ≤ bytes.length) :
    (slice bytes span).length = span.length := by
  rw [slice, Span.length, List.length_take, List.length_drop]
  omega

/-- The evidence of fields that are closed. -/
def fieldsEvidence (bytes : Bytes) (fields : List Span) : List Evidence :=
  fields.map fun field => .ofField (slice bytes field)

/-- What is known of a column once the fields of a line are fed to the evidence from before it. -/
def fedTo (prior : List Evidence) (bytes : Bytes) (fields : List Span) (column : Nat) : Evidence :=
  match fields[column]? with
  | some field => (known prior column).feed (slice bytes field)
  | none => known prior column

/-- The evidence from before a line, with its fields. Each of them has a column, even if none before it
was known. -/
def fedLine (prior : List Evidence) (bytes : Bytes) (fields : List Span) : List Evidence :=
  (List.range (max prior.length fields.length)).map (fedTo prior bytes fields)

theorem fedTo_of_length_le {column : Nat} (behind : fields.length ≤ column) :
    fedTo prior bytes fields column = known prior column := by
  rw [fedTo, List.getElem?_eq_none behind]

/-- One more field changes what is known of its own column. -/
theorem fedTo_concat (prior : List Evidence) (bytes : Bytes) (fields : List Span) (field : Span) :
    fedTo prior bytes (fields ++ [field]) = Function.update (fedTo prior bytes fields) fields.length
      ((known prior fields.length).feed (slice bytes field)) := by
  funext column
  rcases lt_trichotomy column fields.length with before | rfl | after
  · rw [Function.update_of_ne before.ne, fedTo, List.getElem?_append_left before, ← fedTo]
  · rw [Function.update_self, fedTo, List.getElem?_concat_length]
  · have length : (fields ++ [field]).length ≤ column := by
      rw [List.length_append]
      exact after
    rw [Function.update_of_ne after.ne', fedTo_of_length_le length, fedTo_of_length_le after.le]

theorem length_fedLine (prior : List Evidence) (bytes : Bytes) (fields : List Span) :
    (fedLine prior bytes fields).length = max prior.length fields.length := by
  rw [fedLine, List.length_map, List.length_range]

theorem known_fedLine (prior : List Evidence) (bytes : Bytes) (fields : List Span) :
    known (fedLine prior bytes fields) = fedTo prior bytes fields := by
  funext column
  by_cases inside : column < max prior.length fields.length
  · rw [known, fedLine, List.getElem?_map, List.getElem?_range inside]
    rfl
  · obtain ⟨unknown, behind⟩ := max_le_iff.mp (not_lt.mp inside)
    rw [fedTo_of_length_le behind, Evidence.known_of_length_le unknown,
      Evidence.known_of_length_le (by rw [length_fedLine]; exact not_lt.mp inside)]

theorem fedLine_nil (bytes : Bytes) (fields : List Span) :
    fedLine [] bytes fields = fieldsEvidence bytes fields := by
  have length : (fedLine [] bytes fields).length = (fieldsEvidence bytes fields).length := by
    rw [length_fedLine, fieldsEvidence, List.length_map]
    exact Nat.zero_max _
  refine Evidence.ext_known length fun column => ?_
  rw [known_fedLine, fedTo, fieldsEvidence, known, known, List.getElem?_map]
  cases fields[column]? <;> rfl

/-- A scan that has come to an offset, and has fed the bytes of its fields to the evidence from before
the line. The last field is still open; its column may not be in the list yet. -/
structure Collects (prior : List Evidence) (bytes : Bytes) (offset : Nat) (scan : LineScan)
    (evidence : List Evidence) : Prop where
  collected : scan.evidence = some evidence
  opened : scan.since ≤ offset
  least : max prior.length scan.closed.length ≤ evidence.length
  most : evidence.length ≤ max prior.length (scan.closed.length + 1)
  fed : known evidence = Function.update (fedTo prior bytes scan.closed.reverse) scan.closed.length
    (((slice bytes ⟨scan.since, offset⟩).map Text.Bmp.latin1).foldl Evidence.push
      (known prior scan.closed.length))

theorem known_of_nothing_open (prior : List Evidence) (bytes : Bytes) (offset : Nat)
    (fields : List Span) :
    Function.update (fedTo prior bytes fields.reverse) fields.length
      (((slice bytes ⟨offset, offset⟩).map Text.Bmp.latin1).foldl Evidence.push
        (known prior fields.length)) = fedTo prior bytes fields.reverse := by
  have nothing : slice bytes ⟨offset, offset⟩ = [] := by
    rw [slice, Span.length, Nat.sub_self, List.take_zero]
  have unfed : fedTo prior bytes fields.reverse fields.length = known prior fields.length :=
    fedTo_of_length_le fields.length_reverse.le
  rw [nothing, List.map_nil, List.foldl_nil, ← unfed]
  exact Function.update_eq_self _ _

theorem collects_start (prior : List Evidence) (bytes : Bytes) (offset : Nat) :
    (start offset (some prior)).Collects prior bytes offset prior where
  collected := rfl
  opened := Nat.le_refl _
  least := max_le (Nat.le_refl _) (Nat.zero_le _)
  most := le_max_left ..
  fed := (known_of_nothing_open prior bytes offset []).symm

/-- A change of the open field concerns its column alone, which is in the list from then on. -/
theorem Collects.witness (collects : scan.Collects prior bytes offset evidence)
    (change : Evidence → Evidence) :
    ∃ evidence', (scan.witness change).evidence = some evidence' ∧
      evidence'.length = max prior.length (scan.closed.length + 1) ∧
      known evidence' = Function.update (fedTo prior bytes scan.closed.reverse) scan.closed.length
        (change (((slice bytes ⟨scan.since, offset⟩).map Text.Bmp.latin1).foldl Evidence.push
          (known prior scan.closed.length))) := by
  refine ⟨_, by rw [LineScan.witness, collects.collected]; rfl, ?_, ?_⟩
  · have least := collects.least
    have most := collects.most
    rw [Evidence.length_update]
    omega
  · rw [Evidence.known_update, collects.fed, Function.update_idem, Function.update_self]

theorem Collects.content (collects : scan.Collects prior bytes offset evidence)
    (found : bytes[offset]? = some byte) :
    ∃ evidence', (scan.content byte).Collects prior bytes (offset + 1) evidence' := by
  obtain ⟨evidence', collected, length, fed⟩ := collects.witness (·.push (Text.Bmp.latin1 byte))
  refine ⟨evidence', collected, Nat.le_succ_of_le collects.opened, ?_, length.le, ?_⟩
  · rw [length]
    exact max_le_max_left _ (Nat.le_succ _)
  · have same : (scan.content byte).closed = scan.closed ∧
        (scan.content byte).since = scan.since := ⟨rfl, rfl⟩
    rw [same.1, same.2, slice_succ collects.opened found, List.map_append, List.foldl_append]
    exact fed

theorem Collects.close (collects : scan.Collects prior bytes offset evidence)
    (inside : offset ≤ bytes.length) :
    (scan.close offset).evidence =
      some (fedLine prior bytes (scan.close offset).closed.reverse) := by
  obtain ⟨evidence', collected, length, fed⟩ :=
    collects.witness (·.endField (offset - scan.since))
  have closed : (scan.close offset).closed = ⟨scan.since, offset⟩ :: scan.closed := rfl
  have width : (slice bytes ⟨scan.since, offset⟩).length = offset - scan.since :=
    length_slice inside
  have whole : evidence' = fedLine prior bytes (scan.close offset).closed.reverse := by
    refine Evidence.ext_known ?_ fun column => ?_
    · rw [length, length_fedLine, List.length_reverse, closed, List.length_cons]
    · rw [fed, known_fedLine, closed, List.reverse_cons, fedTo_concat, List.length_reverse,
        Evidence.feed, width]
  rw [← whole]
  exact collected

theorem Collects.divide (collects : scan.Collects prior bytes offset evidence)
    (inside : offset ≤ bytes.length) :
    ∃ evidence', (scan.divide offset).Collects prior bytes (offset + 1) evidence' := by
  have length := length_fedLine prior bytes (scan.close offset).closed.reverse
  rw [List.length_reverse] at length
  refine ⟨_, collects.close inside, Nat.le_refl _, length.ge, ?_, ?_⟩
  · rw [length]
    exact max_le_max_left _ (Nat.le_succ _)
  · rw [known_fedLine]
    exact (known_of_nothing_open prior bytes (offset + 1) (scan.close offset).closed).symm

theorem Collects.run (collects : scan.Collects prior bytes offset evidence)
    (inside : offset ≤ bytes.length) :
    (scan.run offset (bytes.drop offset)).1.evidence = some (fedLine prior bytes
      (scan.run offset (bytes.drop offset)).1.closed.reverse) := by
  generalize remains : bytes.drop offset = rest
  induction rest generalizing scan offset evidence with
  | nil => exact collects.close inside
  | cons byte rest ih =>
      have below : offset < bytes.length := by
        by_contra above
        rw [List.drop_eq_nil_of_le (not_lt.mp above)] at remains
        contradiction
      have cons := List.drop_eq_getElem_cons below
      obtain ⟨rfl, next⟩ := List.cons.inj (remains.symm.trans cons)
      have found := List.getElem?_eq_getElem below
      obtain ⟨contentEvidence, content⟩ := collects.content found
      obtain ⟨divideEvidence, divide⟩ := collects.divide inside
      rw [LineScan.run]
      -- Escaped bytes and all others that neither divide nor end are content.
      split_ifs
      · exact ih content below next.symm
      · exact ih divide below next.symm
      · exact collects.close inside
      · exact ih content below next.symm

end Fields

end LineScan

namespace Line

variable {bytes : Bytes} {offset : Nat} {found : ReadLine}

theorem first?_none (offset : Nat) (bytes : Bytes) (evidence : Option (List Evidence)) :
    first? offset bytes none =
      (first? offset bytes evidence).map fun found => { found with evidence := none } := by
  simp only [first?_eq]
  split
  · rfl
  · rw [Option.map_some, Option.some.injEq]
    have same := (LineScan.start (offset + (bytes.takeWhile isLineBreak).length) evidence).run_plain
      (offset + (bytes.takeWhile isLineBreak).length) (bytes.dropWhile isLineBreak)
    have plain : (LineScan.start (offset + (bytes.takeWhile isLineBreak).length) evidence).plain =
      LineScan.start (offset + (bytes.takeWhile isLineBreak).length) none := rfl
    rw [← plain, same]
    rfl

theorem first?_eq_some {evidence : Option (List Evidence)} (inside : offset ≤ bytes.length)
    (read : first? offset (bytes.drop offset) evidence = some found) :
    ∃ start ≤ bytes.length, ∃ scan stop rest,
      (LineScan.start start evidence).run start (bytes.drop start) = (scan, stop, rest) ∧
        found = ⟨scan.line stop, rest, scan.evidence⟩ := by
  simp only [first?_eq] at read
  split at read
  · contradiction
  · generalize skipped : (bytes.drop offset).takeWhile isLineBreak = breaks at read
    have content : (bytes.drop offset).dropWhile isLineBreak =
        bytes.drop (offset + breaks.length) := by
      have split := List.takeWhile_append_dropWhile (p := isLineBreak) (l := bytes.drop offset)
      rw [skipped] at split
      have behind := congrArg (List.drop breaks.length) split
      rwa [List.drop_left, List.drop_drop] at behind
    have short : breaks.length ≤ bytes.length - offset := by
      rw [← skipped, ← List.length_drop]
      exact (List.takeWhile_sublist isLineBreak).length_le
    rw [content] at read
    exact ⟨offset + breaks.length, by omega, _, _, _, rfl, (Option.some.inj read).symm⟩

theorem rest_of_first? {evidence : Option (List Evidence)} (inside : offset ≤ bytes.length)
    (read : first? offset (bytes.drop offset) evidence = some found) :
    found.rest = bytes.drop found.line.stop ∧ found.line.stop ≤ bytes.length := by
  obtain ⟨start, within, scan, stop, rest, scanned, rfl⟩ := first?_eq_some inside read
  have remains := (LineScan.start start evidence).run_rest within
  rw [scanned] at remains
  exact remains

/-- Every field of the line is fed to the evidence from before it. -/
theorem fedLine_of_first? {prior : List Evidence} (inside : offset ≤ bytes.length)
    (read : first? offset (bytes.drop offset) (some prior) = some found) :
    found.evidence = some (LineScan.fedLine prior bytes found.line.fields) := by
  obtain ⟨start, within, scan, stop, rest, scanned, rfl⟩ := first?_eq_some inside read
  have collected := (LineScan.collects_start prior bytes start).run within
  rw [scanned] at collected
  exact collected

theorem evidence_of_first? (inside : offset ≤ bytes.length)
    (read : first? offset (bytes.drop offset) (some []) = some found) :
    found.evidence = some (LineScan.fieldsEvidence bytes found.line.fields) := by
  rw [fedLine_of_first? inside read, LineScan.fedLine_nil]

end Line

section Table

open Evidence (Reserves)

variable {bytes : Bytes} {width stop offset column : Nat} {lines all : List (List Span)}
  {evidence final : List Evidence}

theorem addEvidence_eq_ok {added : List Evidence} {sum : Option (List Evidence)}
    (done : addEvidence (some evidence) (some added) = .ok sum) :
    sum = some (Evidence.mergeAll evidence added) := by
  obtain ⟨counts, counted, rfl⟩ := Outcome.map_eq_ok_iff.mp done
  rw [Evidence.mapM_counted_eq_ok counted]

/-- Add the evidence of lines one after another. -/
def addLines (bytes : Bytes) (file : List Evidence) (lines : List (List Span)) : List Evidence :=
  lines.foldl (fun file fields => Evidence.mergeAll file (LineScan.fieldsEvidence bytes fields)) file

/-- Every field of a line has its room recorded. -/
def LineReserved (bytes : Bytes) (final : List Evidence) (fields : List Span) : Prop :=
  ∀ (column : Nat) (field : Span), fields[column]? = some field →
    Reserves final column (Evidence.ofField (slice bytes field)).width

section Room

variable {fields : List Span}

theorem reserves_addLines {room : Nat} (reserves : Reserves evidence column room)
    (lines : List (List Span)) : Reserves (addLines bytes evidence lines) column room := by
  induction lines generalizing evidence with
  | nil => exact reserves
  | cons fields lines ih => exact ih (reserves.mergeAll _)

theorem lineReserved_addLines (mem : fields ∈ lines) (evidence : List Evidence) :
    LineReserved bytes (addLines bytes evidence lines) fields := by
  induction lines generalizing evidence with
  | nil => cases mem
  | cons first lines ih =>
      rcases List.mem_cons.mp mem with rfl | mem
      · intro column field here
        refine reserves_addLines (Reserves.mergeAll_line _ ⟨_, ?_, Nat.le_refl _⟩) lines
        rw [LineScan.fieldsEvidence, List.getElem?_map, here]
        rfl
      · exact ih mem _

end Room

section Step

variable {rest behind : Bytes} {collected found sum ending : Option (List Evidence)}
  {fields : List Span} {next : Nat}

theorem scanLines_cons (below : offset < stop)
    (read : Line.first? offset rest (collected.map fun _ => []) =
      some ⟨⟨fields, next⟩, behind, found⟩)
    (length : fields.length = width) (added : addEvidence collected found = .ok sum) :
    scanLines width stop offset rest lines collected =
      scanLines width stop next behind (fields :: lines) sum := by
  rw [scanLines, if_pos below]
  split
  · rename_i unread
    rw [read] at unread
    contradiction
  · rename_i other same
    obtain rfl := Option.some.inj (same.symm.trans read)
    simp only [length, ne_eq, not_true_eq_false, if_false, added]

theorem scanLines_inv
    (scanned : scanLines width stop offset rest lines collected = (.ok all, ending)) :
    (¬ offset < stop ∧ all = lines.reverse ∧ ending = collected) ∨
      (offset < stop ∧ ∃ found sum,
        Line.first? offset rest (collected.map fun _ => []) = some found ∧
        found.line.fields.length = width ∧ addEvidence collected found.evidence = .ok sum ∧
        scanLines width stop found.line.stop found.rest (found.line.fields :: lines) sum =
          (.ok all, ending)) := by
  rw [scanLines] at scanned
  split at scanned
  · rename_i below
    refine .inr ⟨below, ?_⟩
    split at scanned
    · simp at scanned
    · rename_i found read
      split at scanned
      · simp at scanned
      · rename_i fields
        split at scanned
        · simp at scanned
        · rename_i sum added
          exact ⟨found, sum, read, not_not.mp fields, added, scanned⟩
  · rename_i above
    obtain ⟨same, ended⟩ := Prod.mk.inj scanned
    exact .inl ⟨above, (Except.ok.inj same).symm, ended.symm⟩

end Step

/-- Scanning with evidence finds the lines that scanning without it finds, of as many fields as asked
for, and adds the evidence of each of them. -/
theorem scanLines_eq_ok (inside : offset ≤ bytes.length) {ending : Option (List Evidence)}
    (scanned : scanLines width stop offset (bytes.drop offset) lines (some evidence) =
      (.ok all, ending)) :
    scanLines width stop offset (bytes.drop offset) lines none = (.ok all, none) ∧
      ∃ read, all = lines.reverse ++ read ∧ ending = some (addLines bytes evidence read) ∧
        ∀ fields ∈ read, fields.length = width := by
  -- Every line read leaves fewer bytes, so the induction is on how many are left.
  generalize size : (bytes.drop offset).length = length
  induction length using Nat.strong_induction_on generalizing offset lines evidence with
  | _ length ih =>
      rcases scanLines_inv scanned with
        ⟨above, rfl, rfl⟩ | ⟨below, found, sum, read, fields, added, later⟩
      · refine ⟨?_, [], by simp, rfl, by simp⟩
        rw [scanLines, if_neg above]
      · have shorter := Line.length_rest_of_first? read
        obtain ⟨rest, within⟩ := Line.rest_of_first? inside read
        rw [Option.map_some] at read
        have fieldsEvidence := Line.evidence_of_first? inside read
        rw [fieldsEvidence] at added
        obtain rfl := addEvidence_eq_ok added
        have unwitnessed : Line.first? offset (bytes.drop offset)
            (Option.map (fun _ => []) (none : Option (List Evidence))) =
              some ⟨⟨found.line.fields, found.line.stop⟩, found.rest, none⟩ := by
          rw [Option.map_none, Line.first?_none offset _ (some []), read, Option.map_some]
        rw [rest] at later shorter
        obtain ⟨plain, lines', rfl, rfl, widths⟩ := ih _ (size ▸ shorter) within later rfl
        refine ⟨?_, found.line.fields :: lines', by simp, rfl,
          List.forall_mem_cons.mpr ⟨fields, widths⟩⟩
        rw [scanLines_cons below unwitnessed fields rfl]
        simp only [rest]
        exact plain

theorem reserves_fitEvidence {names : List String} {room : Nat} (known : column < names.length)
    (reserves : Reserves evidence column room) :
    Reserves (Table.fitEvidence names evidence) column room := by
  obtain ⟨found, here, enough⟩ := reserves.padded names.length
  exact ⟨found, by rw [Table.fitEvidence, List.getElem?_take_of_lt known, here], enough⟩

theorem Table.rest_of_header {names : List String} {found : ReadLine}
    (read : Table.header bytes = .ok (names, found)) :
    found.rest = bytes.drop found.line.stop ∧ found.line.stop ≤ bytes.length := by
  rw [Table.header] at read
  simp only [Outcome.bind_eq_ok_iff] at read
  obtain ⟨line, parsed, names', -, same⟩ := read
  obtain ⟨rfl, rfl⟩ := Prod.mk.inj (Except.ok.inj same)
  rw [Line.parse_zero] at parsed
  split at parsed
  · rename_i found first
    cases parsed
    exact Line.rest_of_first? (Nat.zero_le _) first
  · contradiction

/-- A table that is scanned with evidence is scanned without it, and its lines have a field for each
name. The evidence that is left is that of all lines, and its deduced layout is that of the table. -/
theorem Table.scan_collected {table : Table} {final : Option (List Evidence)}
    (scanned : Table.scan bytes (some evidence) = (.ok table, final)) :
    Table.scan bytes none = (.ok ⟨bytes, table.names, table.lines, none⟩, none) ∧
      table.bytes = bytes ∧
      final = some (Table.fitEvidence table.names (addLines bytes evidence table.lines)) ∧
      (∀ fields ∈ table.lines, fields.length = table.names.length) ∧
      ∃ layout, table.deduced = some layout ∧ deducedLayout table.names
        (Table.fitEvidence table.names (addLines bytes evidence table.lines)) = .ok layout := by
  rw [Table.scan] at scanned ⊢
  split at scanned
  · simp at scanned
  · rename_i names found header
    obtain ⟨rest, inside⟩ := Table.rest_of_header header
    simp only [rest] at scanned ⊢
    split at scanned
    · simp at scanned
    · rename_i lines without
      obtain ⟨-, read, -, same, -⟩ := scanLines_eq_ok inside without
      contradiction
    · rename_i lines collected with'
      obtain ⟨plain, read, rfl, same, widths⟩ := scanLines_eq_ok inside with'
      obtain rfl := Option.some.inj same
      split at scanned
      · simp at scanned
      · rename_i layout deduced
        obtain ⟨same, rfl⟩ := Prod.mk.inj scanned
        obtain rfl := Except.ok.inj same
        exact ⟨by rw [plain], rfl, rfl, widths, layout, rfl, deduced⟩

theorem Table.length_fitEvidence (names : List String) (evidence : List Evidence) :
    (Table.fitEvidence names evidence).length = names.length := by
  rw [Table.fitEvidence, List.length_take]
  exact min_eq_left (Evidence.length_le_padded ..)

/-- All lines of a table that is scanned with evidence have a field for each name, for which the column
of the name reserves the room. -/
theorem Table.scan_eq_ok {table : Table} {final : Option (List Evidence)}
    (scanned : Table.scan bytes (some []) = (.ok table, final)) :
    ∃ reserved, final = some reserved ∧ reserved.length = table.names.length ∧
      Table.scan bytes none = (.ok ⟨bytes, table.names, table.lines, none⟩, none) ∧
      ∀ fields ∈ table.lines, fields.length = table.names.length ∧
        LineReserved bytes reserved fields := by
  obtain ⟨plain, -, rfl, widths, -⟩ := Table.scan_collected scanned
  refine ⟨_, rfl, Table.length_fitEvidence .., plain, fun fields mem => ⟨widths fields mem, ?_⟩⟩
  intro column field here
  have known := (List.getElem?_eq_some_iff.mp here).1
  exact reserves_fitEvidence (widths fields mem ▸ known) (lineReserved_addLines mem [] column field here)

end Table

end RowStore.Csv
