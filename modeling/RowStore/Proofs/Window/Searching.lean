import Mathlib
import RowStore.Window

/-! What the searches of a window find in its content.

A search looks at the front of a list and then at the rest, so it finds the first index at which
something holds. A sequence is looked for at every index: an occurrence that begins inside a failed
match is not missed. A target is live where the escapes directly before it come in pairs. The flag of
the search tells no more than whether the escapes at the end of what has been passed do.
-/

namespace RowStore.Window

variable {α : Type}

section First

/-- The first index of all at which something holds. -/
def First (holds : Nat → Prop) (index : Nat) : Prop :=
  holds index ∧ ∀ earlier < index, ¬ holds earlier

variable {holds : Nat → Prop} {index : Nat}

theorem first_zero_iff : First holds 0 ↔ holds 0 := by
  simp [First]

theorem first_succ_iff :
    First holds (index + 1) ↔ ¬ holds 0 ∧ First (fun later => holds (later + 1)) index := by
  constructor
  · intro first
    obtain ⟨here, none⟩ := first
    exact ⟨none 0 (by omega), here, fun earlier before => none (earlier + 1) (by omega)⟩
  · intro later
    obtain ⟨start, here, none⟩ := later
    refine ⟨here, fun earlier before => ?_⟩
    cases earlier with
    | zero => exact start
    | succ earlier => exact none earlier (by omega)

theorem map_succ_eq_some_iff {later : Option Nat} (start : ¬ holds 0)
    (there : ∀ index, later = some index ↔ First (fun next => holds (next + 1)) index) :
    later.map (· + 1) = some index ↔ First holds index := by
  cases index with
  | zero => simp [first_zero_iff, start]
  | succ index => simp [first_succ_iff, start, there]

/-- A search of a list: it looks at the front, and then at the rest. -/
theorem ite_eq_some_iff {front : Prop} [Decidable front] {later : Option Nat}
    (start : holds 0 ↔ front)
    (there : ∀ index, later = some index ↔ First (fun next => holds (next + 1)) index) :
    (if front then some 0 else later.map (· + 1)) = some index ↔ First holds index := by
  by_cases here : front
  · cases index with
    | zero => simp [here, first_zero_iff, start]
    | succ index => simp [here, first_succ_iff, start]
  · rw [if_neg here]
    exact map_succ_eq_some_iff (here ∘ start.mp) there

theorem exists_first (somewhere : ∃ index, holds index) : ∃ index, First holds index := by
  classical
  exact ⟨Nat.find somewhere, Nat.find_spec somewhere, fun _ => Nat.find_min somewhere⟩

end First

section Searching

variable [DecidableEq α] {elements : List α} {index : Nat}

theorem indexOf?_eq_some_iff {target : α} :
    indexOf? target elements = some index ↔
      First (fun index => elements[index]? = some target) index := by
  induction elements generalizing index with
  | nil => simp [indexOf?, First]
  | cons element rest ih =>
      rw [indexOf?, List.findIdx?_cons]
      simp only [decide_eq_true_eq]
      exact ite_eq_some_iff (by simp) fun later => by simpa [indexOf?] using ih

theorem lt_length_of_indexOf? {target : α} (found : indexOf? target elements = some index) :
    index < elements.length := by
  obtain ⟨inside, -⟩ := List.getElem?_eq_some_iff.mp (indexOf?_eq_some_iff.mp found).1
  exact inside

/-- A sequence stands at an index of a list. -/
def OccursAt (sequence elements : List α) (index : Nat) : Prop := sequence <+: elements.drop index

omit [DecidableEq α] in
theorem exists_occursAt_iff {sequence : List α} :
    (∃ index, OccursAt sequence elements index) ↔ sequence <:+: elements := by
  constructor
  · intro there
    obtain ⟨index, here⟩ := there
    exact here.isInfix.trans (elements.drop_suffix index).isInfix
  · intro within
    obtain ⟨before, after, rfl⟩ := within
    exact ⟨before.length, after, by simp⟩

omit [DecidableEq α] in
theorem occursAt_singleton_iff {target : α} :
    OccursAt [target] elements index ↔ elements[index]? = some target := by
  rw [OccursAt, List.singleton_prefix_iff_head?_eq_some, List.head?_drop]

theorem occurrence?_eq_some_iff {sequence : List α} :
    occurrence? sequence elements = some index ↔ First (OccursAt sequence elements) index := by
  induction elements generalizing index with
  | nil =>
      cases index with
      | zero => simp [occurrence?, first_zero_iff, OccursAt]
      | succ index =>
          have anywhere (index : Nat) : OccursAt sequence [] index ↔ sequence = [] := by
            simp [OccursAt]
          have later : ¬ First (OccursAt sequence []) (index + 1) := by
            intro first
            exact first.2 0 index.succ_pos ((anywhere 0).mpr ((anywhere _).mp first.1))
          simp [occurrence?, later]
  | cons element rest ih =>
      rw [occurrence?]
      exact ite_eq_some_iff (by simp [OccursAt]) fun later => ih

theorem add_length_le_of_occurrence? {sequence : List α}
    (found : occurrence? sequence elements = some index) :
    index + sequence.length ≤ elements.length := by
  obtain ⟨here, none⟩ := occurrence?_eq_some_iff.mp found
  have room := here.length_le
  rw [List.length_drop] at room
  by_cases inside : index ≤ elements.length
  · omega
  · have empty : sequence = [] := List.length_eq_zero_iff.mp (by omega)
    exact absurd (by simp [OccursAt, empty]) (none 0 (by omega))

/-- How many escapes stand directly before an index. -/
def escapesBefore (escape : α) (elements : List α) (index : Nat) : Nat :=
  ((elements.take index).rtakeWhile (· = escape)).length

/-- The target stands at an index, and no escape before it is left for it. -/
def IsLive (target escape : α) (elements : List α) (index : Nat) : Prop :=
  elements[index]? = some target ∧ Even (escapesBefore escape elements index)

instance (target escape : α) (elements : List α) :
    DecidablePred (IsLive target escape elements) :=
  fun _ => inferInstanceAs (Decidable (_ ∧ _))

theorem escapesBefore_length (escape : α) (before rest : List α) :
    escapesBefore escape (before ++ rest) before.length =
      (before.rtakeWhile (· = escape)).length := by
  rw [escapesBefore, List.take_left]

theorem even_length_rtakeWhile_concat (escape element : α) (before : List α) :
    Even ((before ++ [element]).rtakeWhile (· = escape)).length ↔
      (element = escape → ¬ Even (before.rtakeWhile (· = escape)).length) := by
  by_cases same : element = escape
  · simp [same, Nat.even_add_one]
  · simp [same]

/-- The search behind what has been passed. Its flag is set if the escapes at the end of that are not
in pairs. -/
theorem liveIndexOf?_eq_some_iff {target escape : α} {escaped : Bool} {before : List α}
    (flag : escaped = false ↔ Even (before.rtakeWhile (· = escape)).length) :
    liveIndexOf? target escape escaped elements = some index ↔
      First (fun next => IsLive target escape (before ++ elements) (before.length + next)) index := by
  induction elements generalizing escaped before index with
  | nil => simp [liveIndexOf?, First, IsLive]
  | cons element rest ih =>
      have joined : before ++ element :: rest = (before ++ [element]) ++ rest := by simp
      have passed (next : Nat) : before.length + (next + 1) = (before ++ [element]).length + next := by
        rw [List.length_append, List.length_singleton]
        omega
      have here : IsLive target escape (before ++ element :: rest) before.length ↔
          element = target ∧ escaped = false := by
        rw [IsLive, escapesBefore_length, flag]
        simp
      have there (escaped' : Bool)
          (flag' : escaped' = false ↔ Even ((before ++ [element]).rtakeWhile (· = escape)).length)
          (later : Nat) :
          liveIndexOf? target escape escaped' rest = some later ↔
            First (fun next => IsLive target escape (before ++ element :: rest)
              (before.length + (next + 1))) later := by
        simp only [joined, passed]
        exact ih flag'
      cases escaped with
      | true =>
          rw [liveIndexOf?]
          refine map_succ_eq_some_iff (by simp [here]) (there _ ?_)
          rw [even_length_rtakeWhile_concat, ← flag]
          simp
      | false =>
          rw [liveIndexOf?]
          refine ite_eq_some_iff (here.trans (by simp)) (there _ ?_)
          rw [even_length_rtakeWhile_concat, ← flag]
          simp

theorem liveIndexOf?_false_eq_some_iff {target escape : α} :
    liveIndexOf? target escape false elements = some index ↔
      First (IsLive target escape elements) index := by
  have behind : liveIndexOf? target escape false elements = some index ↔
      First (fun next => IsLive target escape ([] ++ elements) (0 + next)) index :=
    liveIndexOf?_eq_some_iff (by simp)
  simpa using behind

theorem lt_length_of_liveIndexOf? {target escape : α}
    (found : liveIndexOf? target escape false elements = some index) :
    index < elements.length := by
  obtain ⟨inside, -⟩ := List.getElem?_eq_some_iff.mp (liveIndexOf?_false_eq_some_iff.mp found).1.1
  exact inside

end Searching

section Repeated

variable [DecidableEq α] {elements : List α} {target escape : α} {index : Nat}

/-- The indices of the live targets, in order. -/
def liveIndices (target escape : α) (elements : List α) : List Nat :=
  (List.range elements.length).filter (IsLive target escape elements)

omit [DecidableEq α] in
theorem rtakeWhile_append_cons {kind : α → Bool} {element : α} (other : ¬ kind element = true)
    (before after : List α) :
    (before ++ element :: after).rtakeWhile kind = after.rtakeWhile kind := by
  induction after using List.reverseRecOn with
  | nil => simp [other]
  | append_singleton after last ih =>
      rw [← List.cons_append, ← List.append_assoc]
      by_cases passed : kind last = true
      · rw [List.rtakeWhile_concat_pos _ _ _ passed, List.rtakeWhile_concat_pos _ _ _ passed, ih]
      · rw [List.rtakeWhile_concat_neg _ _ _ passed, List.rtakeWhile_concat_neg _ _ _ passed]

/-- No escape is left for what stands behind a target. -/
theorem isLive_drop_iff (distinct : target ≠ escape) (here : elements[index]? = some target)
    (later : Nat) :
    IsLive target escape (elements.drop (index + 1)) later ↔
      IsLive target escape elements (index + 1 + later) := by
  obtain ⟨inside, rfl⟩ := List.getElem?_eq_some_iff.mp here
  have front : elements.take (index + 1 + later) =
      elements.take index ++ elements[index] :: (elements.drop (index + 1)).take later := by
    rw [List.take_add, List.take_succ_eq_append_getElem inside, List.append_assoc,
      List.singleton_append]
  rw [IsLive, IsLive, escapesBefore, escapesBefore, front, rtakeWhile_append_cons (by simpa),
    List.getElem?_drop]

theorem liveIndices_eq_nil (none : ∀ index, ¬ IsLive target escape elements index) :
    liveIndices target escape elements = [] := by
  simp [liveIndices, none]

theorem liveIndices_eq_cons (distinct : target ≠ escape)
    (first : First (IsLive target escape elements) index) :
    liveIndices target escape elements =
      index :: (liveIndices target escape (elements.drop (index + 1))).map (index + 1 + ·) := by
  obtain ⟨here, none⟩ := first
  obtain ⟨inside, -⟩ := List.getElem?_eq_some_iff.mp here.1
  have length : elements.length = index + 1 + (elements.drop (index + 1)).length := by
    rw [List.length_drop]
    omega
  have before : (List.range index).filter (IsLive target escape elements) = [] := by
    simpa using none
  have behind : (fun later => decide (IsLive target escape elements (index + 1 + later))) =
      fun later => decide (IsLive target escape (elements.drop (index + 1)) later) := by
    simp only [isLive_drop_iff distinct here.1]
  rw [liveIndices, length, List.range_add, List.range_succ, List.filter_append, List.filter_append,
    before, List.filter_map, liveIndices]
  simp [here, Function.comp_def, behind]

end Repeated

end RowStore.Window
