import Mathlib
import RowStore.Proofs.Csv.Placement
import RowStore.Proofs.Csv.Streaming
import RowStore.Proofs.Evidence.Deduction

/-! Layouts deduced from tables.

The cells of a table are parsed by the layout that its scan deduced, with slots as wide as the
deduction says. Tables are imported with slots as wide as the evidence has recorded. These differ only
where a width is recorded of a column without content, which no evidence that was collected does.
-/

namespace RowStore

namespace Evidence

variable {evidence other : Evidence}

/-- No width is recorded without content. -/
def Grounded (evidence : Evidence) : Prop := evidence.nonEmpty = 0 → evidence.width = 0

theorem grounded_none : none.Grounded := fun _ => rfl

theorem Grounded.push (grounded : evidence.Grounded) (c : Char) : (evidence.push c).Grounded := by
  obtain ⟨-, nonEmpty, -⟩ := foldl_push_counts evidence [c]
  obtain ⟨width, -⟩ := encoded_foldl_push evidence [c]
  exact fun unseen => width.trans (grounded (nonEmpty.symm.trans unseen))

theorem Grounded.endField (grounded : evidence.Grounded) (width : Nat) :
    (evidence.endField width).Grounded := by
  rw [Evidence.endField]
  split_ifs with blank
  · exact grounded
  · intro unseen
    rw [(settle_frame _ _).2.2.1] at unseen
    exact absurd unseen (Nat.succ_ne_zero _)

theorem Grounded.merge (grounded : evidence.Grounded) (grounded' : other.Grounded) :
    (evidence.merge other).Grounded := by
  intro unseen
  obtain ⟨here, there⟩ := Nat.add_eq_zero_iff.mp unseen
  simp only [Evidence.merge, grounded here, grounded' there, max_self]

theorem Grounded.feed (grounded : evidence.Grounded) (field : Bytes) :
    (evidence.feed field).Grounded :=
  (List.foldlRecOn _ _ grounded fun _ grounded c _ => grounded.push c).endField field.length

theorem Grounded.foldl_feed (grounded : evidence.Grounded) (fields : List Bytes) :
    (fields.foldl Evidence.feed evidence).Grounded :=
  List.foldlRecOn _ _ grounded fun _ grounded field _ => grounded.feed field

/-- The width that is recorded is as good as the deduced one, for a type without a size of its own. -/
theorem Grounded.room_deduce (grounded : evidence.Grounded) :
    evidence.deduce.type.size?.getD evidence.width =
      evidence.deduce.type.size?.getD evidence.deduce.width := by
  rw [deduce]
  by_cases unseen : evidence.nonEmpty = 0
  · rw [if_pos unseen, grounded unseen]
  · rw [if_neg unseen]
    split_ifs
    · rfl
    · rfl
    · cases evidence.magnitude <;> rfl

end Evidence

namespace Csv

open Evidence (Grounded known)

variable {bytes : Bytes} {names : List String} {lines : List (List Span)} {evidence : List Evidence}
  {table : Table} {layout : Layout}

section Collected

theorem grounded_addLines (bytes : Bytes) (lines : List (List Span)) (column : Nat) :
    (known (addLines bytes [] lines) column).Grounded := by
  rw [known_addLines]
  exact Evidence.grounded_none.merge (Evidence.grounded_none.foldl_feed _)

/-- All evidence that the scan of a table leaves is grounded. -/
theorem grounded_fitEvidence (bytes : Bytes) (names : List String) (lines : List (List Span)) :
    ∀ found ∈ Table.fitEvidence names (addLines bytes [] lines), found.Grounded := by
  intro found mem
  obtain ⟨column, here⟩ := List.mem_iff_getElem?.mp mem
  have inside := (List.getElem?_eq_some_iff.mp here).1
  rw [Table.length_fitEvidence] at inside
  rw [getElem?_fitEvidence inside, Option.some.injEq] at here
  exact here ▸ grounded_addLines bytes lines column

/-- Without types that are forced, both ways of placing the columns come to the same. -/
theorem place_slots (grounded : ∀ found ∈ evidence, found.Grounded) :
    Layout.place (slots [] names evidence) = deducedLayout names evidence := by
  refine Layout.placeFrom_congr 0 ?_
  rw [slots, List.forall₂_map_left_iff, List.forall₂_map_right_iff, List.forall₂_same]
  rintro ⟨name, found⟩ mem
  exact ⟨rfl, rfl, (grounded found (List.of_mem_zip mem).2).room_deduce⟩

end Collected

section Stages

/-- The columns of the text cells have those of the layout as their next stages. -/
theorem next?_textSource (deduced : table.deduced = some layout)
    (length : layout.length = table.names.length) :
    (RowCursor.ofSource table.textSource).columns.map Column.next? = layout.map some := by
  have columns : (RowCursor.ofSource table.textSource).columns = table.textColumns :=
    RowCursor.columns_ofSource _
  rw [columns, Table.textColumns, deduced]
  refine List.ext_getElem? fun index => ?_
  rw [List.getElem?_map, List.getElem?_map, List.getElem?_map, List.getElem?_zipIdx, Nat.zero_add]
  by_cases inside : index < table.names.length
  · rw [List.getElem?_eq_getElem inside, List.getElem?_eq_getElem (length ▸ inside)]
    simp only [Option.map_some, Option.bind_some, List.getElem?_eq_getElem (length ▸ inside)]
    rfl
  · have behind := not_lt.mp inside
    rw [List.getElem?_eq_none behind, List.getElem?_eq_none (length ▸ behind)]
    rfl

end Stages

section Reading

/-- Without columns, the cells are parsed by the layout that the scan deduced. -/
theorem fst_readTyped [CalendarText] (bytes : Bytes) (evidence : Option (List Evidence)) :
    (readTyped bytes none evidence).1 = (Table.scan bytes (some (evidence.getD []))).1.map
      fun table => .ofSource (table.typedSource (table.deduced.getD [])) := by
  rw [readTyped]
  simp only [Option.isNone_none, if_true]
  cases Table.scan bytes (some (evidence.getD [])) with
  | mk result final => cases result <;> rfl

theorem fst_readText (bytes : Bytes) (evidence : Option (List Evidence)) :
    (readText bytes evidence).1 =
      (Table.scan bytes evidence).1.map fun table => .ofSource table.textSource :=
  rfl

theorem layout_of_error {final : Option (List Evidence)} {reason : Error}
    (scanned : Table.scan bytes (some []) = (.error reason, final)) :
    Csv.layout bytes [] = Outcome.ofData (.error reason) := by
  rw [Csv.layout, readText, scanned]
  rfl

theorem layout_of_ok {final : Option (List Evidence)}
    (scanned : Table.scan bytes (some []) = (.ok table, final)) :
    ∃ layout, table.deduced = some layout ∧ layout.length = table.names.length ∧
      Csv.layout bytes [] = .ok (.ofSource table.textSource, layout) := by
  obtain ⟨-, -, rfl, -, layout, deduced, laid⟩ := Table.scan_collected scanned
  rw [← place_slots (grounded_fitEvidence bytes table.names table.lines)] at laid
  have length := Layout.length_of_place laid
  rw [slots, List.length_map, List.length_zip, Table.length_fitEvidence, min_self] at length
  refine ⟨layout, deduced, length, ?_⟩
  rw [Csv.layout, readText, scanned]
  refine Outcome.bind_eq_ok_iff.mpr ⟨.ofSource table.textSource, rfl,
    Outcome.bind_eq_ok_iff.mpr ⟨(), rfl, Outcome.bind_eq_ok_iff.mpr ⟨layout, ?_, rfl⟩⟩⟩
  rw [names_textSource, Option.getD_some, laid]
  rfl

end Reading

/-- A table without forced types is laid out just when it is read with the types deduced, and with the
same layout; else both are refused for the same reason. The layout is also what the columns of its text
cells name as their next stages. -/
theorem layout_deduced [CalendarText] (bytes : Bytes) :
    (∃ segments typed layout, Csv.layout bytes [] = .ok (segments, layout) ∧
      (readTyped bytes none none).1 = .ok typed ∧ (readTyped bytes none (some [])).1 = .ok typed ∧
      (readText bytes (some [])).1 = .ok segments ∧
      typed.columns = layout ∧ segments.columns.map Column.next? = layout.map some) ∨
    ∃ reason, Csv.layout bytes [] = Outcome.ofData (.error reason) ∧
      (readTyped bytes none none).1 = .error reason ∧
      (readTyped bytes none (some [])).1 = .error reason ∧
      (readText bytes (some [])).1 = .error reason := by
  simp only [fst_readTyped, fst_readText, Option.getD_none, Option.getD_some]
  cases scanned : Table.scan bytes (some []) with
  | mk result final =>
      cases result with
      | error reason => exact .inr ⟨reason, layout_of_error scanned, rfl, rfl, rfl⟩
      | ok table =>
          obtain ⟨layout, deduced, length, laid⟩ := layout_of_ok scanned
          refine .inl ⟨_, _, layout, laid, rfl, rfl, rfl, ?_, next?_textSource deduced length⟩
          rw [RowCursor.columns_ofSource, Table.typedSource, deduced]
          rfl

/-- A column without content takes no room. -/
example : (Csv.layout (Text.Utf8.ofString "n,t\n1,\n") []).map (fun laid => laid.2) =
    .ok [⟨⟨"n", .integer ⟨true, .w8⟩, 0, 1⟩, []⟩, ⟨⟨"t", .string, 1, 1⟩, []⟩] := by
  decide +kernel

end Csv

end RowStore
