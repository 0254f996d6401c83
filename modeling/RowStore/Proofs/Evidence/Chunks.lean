import Mathlib
import RowStore.Proofs.Evidence.Merge

/-! Evidence of lines that are observed in chunks.

However the lines are cut into chunks, and in whatever order the evidence of the chunks is merged, the
sum is the evidence of all lines, with every column observed from its first field to its last.
-/

namespace RowStore.Evidence

section Lines

/-- The fields of a column, from the first line to the last. Short lines have none. -/
def columnFields (lines : List (List String)) (column : Nat) : List String :=
  lines.filterMap fun fields => fields[column]?

/-- The number of fields of the longest line. -/
def widest (lines : List (List String)) : Nat :=
  (lines.map List.length).foldr max 0

/-- The evidence of lines: each column observes all of its fields, one after another. -/
def ofLines (lines : List (List String)) : List Evidence :=
  (List.range (widest lines)).map fun column => (columnFields lines column).foldl observe none

variable {lines : List (List String)} {column : Nat}

theorem length_ofLines (lines : List (List String)) : (ofLines lines).length = widest lines := by
  rw [ofLines, List.length_map, List.length_range]

theorem length_le_widest {fields : List String} (mem : fields ∈ lines) :
    fields.length ≤ widest lines := by
  induction lines with
  | nil => cases mem
  | cons first lines ih =>
      rw [widest, List.map_cons, List.foldr_cons, ← widest]
      rcases List.mem_cons.mp mem with rfl | mem
      · exact le_max_left ..
      · exact (ih mem).trans (le_max_right ..)

theorem widest_append (first second : List (List String)) :
    widest (first ++ second) = max (widest first) (widest second) := by
  induction first with
  | nil => exact (Nat.zero_max _).symm
  | cons fields first ih =>
      rw [List.cons_append, widest, List.map_cons, List.foldr_cons, ← widest, ih, ← max_assoc]
      rfl

theorem known_ofLines (lines : List (List String)) (column : Nat) :
    known (ofLines lines) column = (columnFields lines column).foldl observe none := by
  by_cases inside : column < widest lines
  · rw [known, ofLines, List.getElem?_map, List.getElem?_range inside]
    rfl
  · have absent : columnFields lines column = [] := by
      refine List.filterMap_eq_nil_iff.mpr fun fields mem => ?_
      exact List.getElem?_eq_none ((length_le_widest mem).trans (not_lt.mp inside))
    rw [absent, known_of_length_le (by rw [length_ofLines]; exact not_lt.mp inside)]
    rfl

/-- The evidence of more lines is merged into that of the lines before them. -/
theorem ofLines_append (first second : List (List String)) :
    ofLines (first ++ second) = mergeAll (ofLines first) (ofLines second) := by
  refine ext_known ?_ fun column => ?_
  · simp only [length_mergeAll, length_ofLines, widest_append]
  · rw [known_mergeAll]
    simp only [known_ofLines, columnFields, List.filterMap_append]
    exact adds_observe.foldl_append _ _

end Lines

section Counts

variable {file added : List Evidence}

/-- Every count fits its 32 bits. -/
def Counted (file : List Evidence) : Prop :=
  ∀ column, (known file column).empty < UInt32.size ∧ (known file column).nonEmpty < UInt32.size

theorem counted_iff : Counted file ↔ ∀ found ∈ file, found.counted = .ok found := by
  constructor
  · intro bounded found mem
    obtain ⟨column, inside, rfl⟩ := List.mem_iff_getElem.mp mem
    have here := bounded column
    rw [known, List.getElem?_eq_getElem inside] at here
    exact if_pos here
  · intro each column
    rw [known]
    cases here : file[column]? with
    | none => decide
    | some found =>
        have fits := each found (List.mem_of_getElem? here)
        rw [counted] at fits
        split at fits
        · assumption
        · cases fits

theorem mapM_counted_of_counted (bounded : Counted file) : file.mapM counted = .ok file := by
  have each := counted_iff.mp bounded
  rw [Outcome.mapM_eq_ok_iff, List.forall₂_same]
  exact each

theorem mapM_counted_of_not_counted (unbounded : ¬ Counted file) :
    file.mapM counted = .error (.trap .overflow) := by
  cases done : file.mapM counted with
  | ok counts =>
      obtain rfl := mapM_counted_eq_ok done
      rw [Outcome.mapM_eq_ok_iff, List.forall₂_same] at done
      exact absurd (counted_iff.mpr done) unbounded
  | error reason =>
      obtain ⟨found, -, refused⟩ := Outcome.exists_of_mapM_eq_error done
      rw [counted] at refused
      split at refused
      · cases refused
      · exact congrArg Except.error (Except.error.inj refused).symm

/-- Counts only grow. -/
theorem Counted.of_mergeAll (bounded : Counted (mergeAll file added)) : Counted file := by
  intro column
  have here := bounded column
  rw [known_mergeAll] at here
  exact ⟨(Nat.le_add_right ..).trans_lt here.1, (Nat.le_add_right ..).trans_lt here.2⟩

end Counts

section Chunks

/-- Merge the evidence of a chunk, unless a count leaves its 32 bits. -/
def addChunk (file : List Evidence) (chunk : List (List String)) : Except Error (List Evidence) :=
  (mergeAll file (ofLines chunk)).mapM counted

variable {chunks order : List (List (List String))}

theorem foldl_mergeAll (seen : List (List String)) (chunks : List (List (List String))) :
    chunks.foldl (fun file chunk => mergeAll file (ofLines chunk)) (ofLines seen) =
      ofLines (seen ++ chunks.flatten) := by
  induction chunks generalizing seen with
  | nil => rw [List.foldl_nil, List.flatten_nil, List.append_nil]
  | cons chunk chunks ih =>
      rw [List.foldl_cons, ← ofLines_append, ih, List.flatten_cons, List.append_assoc]

/-- The counts of all lines decide: some merge on the way overflows exactly if they do. -/
theorem foldlM_addChunk {seen : List (List String)} (bounded : Counted (ofLines seen))
    (chunks : List (List (List String))) :
    chunks.foldlM addChunk (ofLines seen) = (ofLines (seen ++ chunks.flatten)).mapM counted := by
  induction chunks generalizing seen with
  | nil =>
      rw [List.flatten_nil, List.append_nil, mapM_counted_of_counted bounded]
      rfl
  | cons chunk chunks ih =>
      rw [List.foldlM_cons, addChunk, ← ofLines_append, List.flatten_cons, ← List.append_assoc]
      by_cases next : Counted (ofLines (seen ++ chunk))
      · rw [mapM_counted_of_counted next]
        exact ih next
      · have later : ¬ Counted (ofLines (seen ++ chunk ++ chunks.flatten)) := by
          rw [ofLines_append]
          exact fun all => next all.of_mergeAll
        rw [mapM_counted_of_not_counted next, mapM_counted_of_not_counted later]
        rfl

theorem ofLines_flatten_perm (reordered : order.Perm chunks) :
    ofLines order.flatten = ofLines chunks.flatten := by
  have same := reordered.foldl_eq' (f := fun file chunk => mergeAll file (ofLines chunk))
    (fun first _ second _ file => mergeAll_right_comm file (ofLines first) (ofLines second)) (ofLines [])
  rwa [foldl_mergeAll, foldl_mergeAll] at same

theorem mergeAll_ofLines_comm (first second : List (List String)) :
    mergeAll (ofLines first) (ofLines second) = mergeAll (ofLines second) (ofLines first) := by
  have swapped := ofLines_flatten_perm (List.Perm.swap second first [])
  simpa [ofLines_append] using swapped

/-- Chunks may be merged in any order, and sums of chunks with each other: every way gives the evidence
of all lines, and with it the types of all columns. On the way a count overflows only if the counts of
all lines do. -/
theorem merge_chunks (chunks order : List (List (List String))) (reordered : order.Perm chunks) :
    order.foldl (fun file chunk => mergeAll file (ofLines chunk)) [] = ofLines chunks.flatten ∧
      (order.foldl (fun file chunk => mergeAll file (ofLines chunk)) []).map deduce =
        (List.range (widest chunks.flatten)).map (fun column =>
          ((columnFields chunks.flatten column).foldl observe none).deduce) ∧
      (Counted (ofLines chunks.flatten) →
        order.foldlM addChunk [] = .ok (ofLines chunks.flatten)) ∧
      (¬ Counted (ofLines chunks.flatten) →
        order.foldlM addChunk [] = .error (.trap .overflow)) ∧
      (∀ first second, mergeAll (ofLines first) (ofLines second) = ofLines (first ++ second) ∧
        mergeAll (ofLines first) (ofLines second) = mergeAll (ofLines second) (ofLines first)) ∧
      (∀ first second third : Evidence,
        (first.merge second).merge third = first.merge (second.merge third)) ∧
      (∀ first second : Evidence, first.field = .empty → second.field = .empty →
        first.merge second = second.merge first) ∧
      ∀ evidence : Evidence, evidence.field = .empty →
        evidence.merge none = evidence ∧ none.merge evidence = evidence := by
  have same := ofLines_flatten_perm reordered
  have folded : order.foldl (fun file chunk => mergeAll file (ofLines chunk)) [] =
      ofLines chunks.flatten := (foldl_mergeAll [] order).trans same
  have checked : order.foldlM addChunk [] = (ofLines chunks.flatten).mapM counted := by
    have empty : Counted (ofLines []) := counted_iff.mpr fun _ mem => nomatch mem
    rw [← same]
    exact foldlM_addChunk empty order
  refine ⟨folded, ?_, fun bounded => ?_, fun unbounded => ?_, fun first second => ?_, merge_assoc,
    fun _ _ opened opened' => merge_comm (opened.trans opened'.symm),
    fun evidence closed => ⟨merge_none evidence, none_merge closed⟩⟩
  · rw [folded, ofLines, List.map_map]
    rfl
  · rw [checked, mapM_counted_of_counted bounded]
  · rw [checked, mapM_counted_of_not_counted unbounded]
  · exact ⟨(ofLines_append first second).symm, mergeAll_ofLines_comm first second⟩

/-- The second chunk is merged first. Its second line is the longest, and the first line has the widest
number. -/
theorem merge_chunks_second_first :
    let first : List (List String) := [["-129", "x"]]
    let second : List (List String) := [["7"], ["+8", "", "2.5"]]
    [second, first].Perm [first, second] ∧
      ([second, first].foldl (fun file chunk => mergeAll file (ofLines chunk)) []).map deduce =
        [⟨.integer .int16, 2⟩, ⟨.string, 1⟩, ⟨.double, 8⟩] := by
  intro first second
  have swapped : [second, first].Perm [first, second] := .swap first second []
  obtain ⟨-, deduced, -⟩ := merge_chunks [first, second] [second, first] swapped
  exact ⟨swapped, deduced.trans (by decide)⟩

end Chunks

end RowStore.Evidence
