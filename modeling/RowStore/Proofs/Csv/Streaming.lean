import Mathlib
import RowStore.Proofs.Csv.Roles

/-! Evidence that is streamed.

A scan feeds each byte to the evidence of a column before it is known where the field ends, and the
lines of a table add up to its evidence. What is left in the end is what the cells would have given
when fed one by one.
-/

namespace RowStore.Csv

open Evidence (known feed)

namespace LineScan

/-- Behind the fields of a line nothing changes. -/
theorem getElem?_fedLine_of_length_le {fields : List Span} {column : Nat} (prior : List Evidence)
    (bytes : Bytes) (behind : fields.length ≤ column) :
    (fedLine prior bytes fields)[column]? = prior[column]? := by
  have length := length_fedLine prior bytes fields
  rcases Nat.lt_or_ge column prior.length with inside | outside
  · rw [Evidence.getElem?_eq_known (length ▸ inside.trans_le (le_max_left ..)), known_fedLine,
      fedTo_of_length_le behind, Evidence.getElem?_eq_known inside]
  · rw [List.getElem?_eq_none outside,
      List.getElem?_eq_none (length ▸ max_le outside behind)]

end LineScan

namespace Line

variable {bytes : Bytes} {start stop : Int} {prior : List Evidence} {line : Line}

/-- A scan that finds no field has fed no byte. -/
theorem collect_eq (bytes : Bytes) (start stop : Int) (evidence : Option (List Evidence)) :
    collect bytes start stop evidence =
      match parse bytes start stop evidence with
      | .ok found => (.ok found.line, found.evidence)
      | .error reason => (.error reason, evidence) := by
  simp only [collect, parse, scan, LineScan.first]
  generalize (bytes.take (reach bytes stop)).drop start.toNat = unread
  have fields := LineScan.closed_run_ne_nil
  split_ifs with blank
  · rfl
  · simp only [ofScan?, List.isEmpty_iff, fields, if_false]
    rfl

theorem parse_none (bytes : Bytes) (start stop : Int) (evidence : Option (List Evidence)) :
    parse bytes start stop none =
      (parse bytes start stop evidence).map fun found => { found with evidence := none } := by
  rw [parse_eq, parse_eq, first?_none _ _ evidence]
  cases first? start.toNat ((bytes.take (reach bytes stop)).drop start.toNat) evidence <;> rfl

/-- The line found does not depend on the evidence. -/
theorem fst_collect (bytes : Bytes) (start stop : Int) (evidence : Option (List Evidence)) :
    (collect bytes start stop evidence).1 = (collect bytes start stop none).1 := by
  rw [collect_eq, collect_eq, parse_none _ _ _ evidence]
  cases parse bytes start stop evidence <;> rfl

theorem snd_collect_none (bytes : Bytes) (start stop : Int) :
    (collect bytes start stop none).2 = none := by
  rw [collect_eq, parse_none _ _ _ none]
  cases parse bytes start stop none <;> rfl

theorem snd_collect_of_error {evidence : Option (List Evidence)} {reason : Error}
    (refused : (collect bytes start stop evidence).1 = .error reason) :
    (collect bytes start stop evidence).2 = evidence := by
  rw [collect_eq] at refused ⊢
  cases parsed : parse bytes start stop evidence with
  | ok found => rw [parsed] at refused; cases refused
  | error other => rfl

theorem slice_take {bound : Nat} {span : Span} (inside : span.stop ≤ bound) :
    slice (bytes.take bound) span = slice bytes span := by
  rw [slice, slice, List.drop_take, List.take_take, Span.length, min_eq_left (by omega)]

/-- Every field of the line is fed to the evidence from before it. -/
theorem fedLine_of_collect (read : (collect bytes start stop (some prior)).1 = .ok line) :
    (collect bytes start stop (some prior)).2 = some (LineScan.fedLine prior bytes line.fields) ∧
      ∀ field ∈ line.fields, field.stop ≤ bytes.length := by
  rw [collect_eq] at read ⊢
  cases parsed : parse bytes start stop (some prior) with
  | error reason => rw [parsed] at read; cases read
  | ok found =>
      rw [parsed] at read
      obtain rfl := Except.ok.inj read
      rw [parse_eq] at parsed
      cases first : first? start.toNat ((bytes.take (reach bytes stop)).drop start.toNat)
          (some prior) with
      | none => rw [first] at parsed; cases parsed
      | some other =>
          rw [first] at parsed
          obtain rfl := Except.ok.inj parsed
          -- The bytes up to the bound are all that is read, and the fields stand among them.
          have within : (bytes.take (reach bytes stop)).length = reach bytes stop := by
            rw [List.length_take, min_eq_left (reach_le_length bytes stop)]
          obtain ⟨origin, -, split, after, below, -, ended, bounded⟩ := (foundAt_of_first? first).bounds
          rw [within] at below bounded
          have stops : ∀ field ∈ other.line.fields, field.stop ≤ reach bytes stop :=
            fun field mem => (split.stop_le_textStop field mem).trans (ended.trans bounded)
          have inside : start.toNat ≤ (bytes.take (reach bytes stop)).length := by omega
          refine ⟨?_, fun field mem => (stops field mem).trans (reach_le_length bytes stop)⟩
          have same : LineScan.fedTo prior (bytes.take (reach bytes stop)) other.line.fields =
              LineScan.fedTo prior bytes other.line.fields := by
            funext column
            rw [LineScan.fedTo, LineScan.fedTo]
            cases here : other.line.fields[column]? with
            | none => rfl
            | some field => simp only [slice_take (stops field (List.mem_of_getElem? here))]
          rw [LineScan.fedLine, ← same]
          exact fedLine_of_first? inside first

end Line

section Sum

variable {bytes : Bytes} {evidence : List Evidence} {names : List String} {column : Nat}

/-- The cells of a column, from the first row to the last. -/
def Table.cells (table : Table) (column : Nat) : List Bytes :=
  table.lines.filterMap fun fields => fields[column]?.map (slice table.bytes)

/-- A table whose rows all reach a column has a cell of it for each row. -/
theorem Table.getElem?_cells {table : Table} (reached : ∀ fields ∈ table.lines, column < fields.length)
    (row : Nat) :
    (table.cells column)[row]? = (table.field? row column).map (slice table.bytes) := by
  have cells : table.cells column =
      table.lines.map fun fields => slice table.bytes (fields[column]?.getD ⟨0, 0⟩) := by
    rw [Table.cells, ← List.filterMap_eq_map]
    refine List.filterMap_congr fun fields mem => ?_
    simp [List.getElem?_eq_getElem (reached fields mem)]
  rw [cells, List.getElem?_map, Table.field?]
  cases here : table.lines[row]? with
  | none => rfl
  | some fields =>
      have inside := reached fields (List.mem_of_getElem? here)
      rw [Option.bind_some, List.getElem?_eq_getElem inside]
      simp [List.getElem?_eq_getElem inside]

theorem known_addLines (bytes : Bytes) (evidence : List Evidence) (lines : List (List Span))
    (column : Nat) :
    known (addLines bytes evidence lines) column = (known evidence column).merge
      ((lines.filterMap fun fields => fields[column]?.map (slice bytes)).foldl feed .none) := by
  induction lines generalizing evidence with
  | nil => exact (Evidence.merge_none _).symm
  | cons fields lines ih =>
      have added : known (LineScan.fieldsEvidence bytes fields) column =
          LineScan.fedTo [] bytes fields column := by
        rw [← LineScan.known_fedLine, LineScan.fedLine_nil]
      rw [addLines, List.foldl_cons, ← addLines, ih, Evidence.known_mergeAll, added,
        List.filterMap_cons, LineScan.fedTo]
      cases here : fields[column]? with
      | none => exact congrArg (Evidence.merge · _) (Evidence.merge_none _)
      | some field =>
          have closed : (Evidence.none.feed (slice bytes field)).field = .empty :=
            (Evidence.adds_feed .none _ rfl).1
          rw [Option.map_some, List.foldl_cons, Evidence.adds_feed.foldl_eq_merge closed,
            Evidence.merge_assoc]
          rfl

theorem getElem?_fitEvidence (inside : column < names.length) :
    (Table.fitEvidence names evidence)[column]? = some (known evidence column) := by
  have room : column < (Evidence.padded names.length evidence).length :=
    inside.trans_le (Evidence.length_le_padded ..)
  rw [Table.fitEvidence, List.getElem?_take_of_lt inside, Evidence.getElem?_eq_known room,
    Evidence.known_padded]

end Sum

/-- Evidence that is streamed is that of the fields. A line is the same with evidence and without it;
once it is read, each of its fields has been pushed byte by byte and closed with its length, in the
column of its number alone, and without a line nothing has been fed. After a whole table, what was
known of each column before is merged with the evidence of its cells, as feeding them one after
another to it gives if no field was left open in it. -/
theorem collect_streamed (bytes : Bytes) (prior : List Evidence) :
    (∀ start stop : Int,
      (Line.collect bytes start stop (some prior)).1 = (Line.collect bytes start stop none).1 ∧
      (Line.collect bytes start stop none).2 = none ∧
      (∀ line, (Line.collect bytes start stop (some prior)).1 = .ok line →
        ∃ final, (Line.collect bytes start stop (some prior)).2 = some final ∧
          final.length = max prior.length line.fields.length ∧
          (∀ (column : Nat) (field : Span), line.fields[column]? = some field →
            final[column]? = some ((((slice bytes field).map Text.Bmp.latin1).foldl Evidence.push
              (prior[column]?.getD .none)).endField field.length)) ∧
          ∀ column : Nat, line.fields.length ≤ column → final[column]? = prior[column]?) ∧
      ∀ reason, (Line.collect bytes start stop (some prior)).1 = .error reason →
        (Line.collect bytes start stop (some prior)).2 = some prior) ∧
    ∀ table final, Table.scan bytes (some prior) = (.ok table, final) →
      ∃ summed, final = some summed ∧ summed.length = table.names.length ∧
        ∀ column < table.names.length,
          (∀ row : Nat, (table.cells column)[row]? = (table.field? row column).map (slice bytes)) ∧
          summed[column]? = some ((prior[column]?.getD .none).merge
            ((table.cells column).foldl feed .none)) ∧
          ((prior[column]?.getD .none).field = .empty →
            summed[column]? = some ((table.cells column).foldl feed (prior[column]?.getD .none))) := by
  refine ⟨fun start stop => ⟨Line.fst_collect .., Line.snd_collect_none .., fun line read => ?_,
    fun reason refused => Line.snd_collect_of_error refused⟩, fun table final scanned => ?_⟩
  · obtain ⟨collected, inside⟩ := Line.fedLine_of_collect read
    have length := LineScan.length_fedLine prior bytes line.fields
    have fed := LineScan.known_fedLine prior bytes line.fields
    refine ⟨_, collected, length, fun column field here => ?_, fun column behind => ?_⟩
    · have known : column < line.fields.length := (List.getElem?_eq_some_iff.mp here).1
      have stops := inside field (List.mem_of_getElem? here)
      rw [Evidence.getElem?_eq_known (by omega), fed, LineScan.fedTo, here,
        ← LineScan.length_slice stops]
      rfl
    · exact LineScan.getElem?_fedLine_of_length_le prior bytes behind
  · obtain ⟨-, rfl, rfl, widths, -⟩ := Table.scan_collected scanned
    refine ⟨_, rfl, Table.length_fitEvidence .., fun column inside => ⟨fun row => ?_, ?_⟩⟩
    · exact Table.getElem?_cells (fun fields mem => inside.trans_eq (widths fields mem).symm) row
    rw [getElem?_fitEvidence inside, known_addLines]
    refine ⟨rfl, fun closed => ?_⟩
    rw [Evidence.adds_feed.foldl_eq_merge closed]
    rfl

/-- A column that is known to have held a fraction, and one that is not known yet. -/
theorem collect_streamed_second_column :
    let bytes : Bytes := [97, 44, 98, 10, 45, 55, 44, 120, 10]
    let prior : List Evidence := [Evidence.none.observe "2.5"]
    (∃ final, (Line.collect bytes 4 (-1) (some prior)).2 = some final ∧ final.length = 2 ∧
      final[1]? = some (Evidence.none.observe "x")) ∧
    ∃ table summed, Table.scan bytes (some prior) = (.ok table, some summed) ∧
      summed[0]? = some ((Evidence.none.observe "2.5").merge (Evidence.none.observe "-7")) := by
  intro bytes prior
  obtain ⟨lines, tables⟩ := collect_streamed bytes prior
  obtain ⟨-, -, fed, -⟩ := lines 4 (-1)
  constructor
  · obtain ⟨final, collected, length, columns, -⟩ := fed ⟨[⟨4, 6⟩, ⟨7, 8⟩], 9⟩ (by decide)
    exact ⟨final, collected, length, (columns 1 ⟨7, 8⟩ rfl).trans (by decide)⟩
  · have read : Table.header bytes = .ok (["a", "b"],
        ⟨⟨[⟨0, 1⟩, ⟨2, 3⟩], 4⟩, [45, 55, 44, 120, 10], none⟩) := by
      decide +kernel
    have ending : contentEnd 4 [45, 55, 44, 120, 10] = 8 := by decide
    have width : ["a", "b"].length = 2 := rfl
    have row : scanLines 2 8 4 [45, 55, 44, 120, 10] [] (some prior) =
        scanLines 2 8 9 [] [[⟨4, 6⟩, ⟨7, 8⟩]] (some (addLines bytes prior [[⟨4, 6⟩, ⟨7, 8⟩]])) :=
      scanLines_cons (by decide) (show Line.first? 4 [45, 55, 44, 120, 10] (some []) =
        some ⟨⟨[⟨4, 6⟩, ⟨7, 8⟩], 9⟩, [],
          some (LineScan.fieldsEvidence bytes [⟨4, 6⟩, ⟨7, 8⟩])⟩ by decide) rfl (by decide)
    have done : scanLines 2 8 9 [] [[⟨4, 6⟩, ⟨7, 8⟩]]
        (some (addLines bytes prior [[⟨4, 6⟩, ⟨7, 8⟩]])) =
          (.ok [[⟨4, 6⟩, ⟨7, 8⟩]], some (addLines bytes prior [[⟨4, 6⟩, ⟨7, 8⟩]])) :=
      scanLines_done (by decide) _ _
    let layout : Layout := [⟨⟨"a", .double, 0, 8⟩, []⟩, ⟨⟨"b", .string, 8, 9⟩, []⟩]
    have placed : deducedLayout ["a", "b"] (Table.fitEvidence ["a", "b"]
        (addLines bytes prior [[⟨4, 6⟩, ⟨7, 8⟩]])) = .ok layout := by
      decide +kernel
    have scanned : Table.scan bytes (some prior) =
        (.ok ⟨bytes, ["a", "b"], [[⟨4, 6⟩, ⟨7, 8⟩]], some layout⟩,
          some (Table.fitEvidence ["a", "b"] (addLines bytes prior [[⟨4, 6⟩, ⟨7, 8⟩]]))) := by
      simp only [Table.scan, read, ending, width, row, done, placed]
    obtain ⟨summed, same, -, columns⟩ := tables _ _ scanned
    exact ⟨_, summed, by rw [scanned, same], (columns 0 (by decide)).2.1.trans (by decide)⟩

end RowStore.Csv
