import Mathlib
import RowStore.Proofs.Cursor.Projections

/-! Columns excluded by name.

A name stands for the first visible column that bears it. Excluding names drops these columns and no
others, so a name that is borne twice - by two columns of a table, or by one that was selected
twice - is still there afterwards.
-/

namespace RowStore.RowCursor

variable {cursor result : RowCursor} {source : RowSource} {names : List String} {name : String}
  {indices : List Nat} {position : Nat}

/-- Does the first visible column of one of some names stand at a position? -/
def isFirst (cursor : RowCursor) (names : List String) (position : Nat) : Bool :=
  match cursor.names[position]? with
  | some name => names.contains name && !(cursor.names.take position).contains name
  | none => false

theorem isFirst_iff : cursor.isFirst names position = true ↔ ∃ name ∈ names,
    cursor.names[position]? = some name ∧ name ∉ cursor.names.take position := by
  rw [isFirst]
  cases cursor.names[position]? with
  | none => simp
  | some name => simp

section Indices

theorem indexOf?_eq_some_iff : Layout.indexOf? cursor.columns name = some position ↔
    cursor.names[position]? = some name ∧ name ∉ cursor.names.take position := by
  have named : Layout.indexOf? cursor.columns name = cursor.names.findIdx? (· = name) := by
    rw [names, List.findIdx?_map]
    rfl
  rw [named, List.findIdx?_eq_some_iff_getElem]
  constructor
  · rintro ⟨inside, here, earlier⟩
    refine ⟨List.getElem?_eq_some_iff.mpr ⟨inside, of_decide_eq_true here⟩, fun mem => ?_⟩
    obtain ⟨index, below, same⟩ := List.mem_take_iff_getElem.mp mem
    exact earlier index (by omega) (decide_eq_true same)
  · rintro ⟨here, unseen⟩
    obtain ⟨inside, same⟩ := List.getElem?_eq_some_iff.mp here
    refine ⟨inside, decide_eq_true same, fun index below found => unseen ?_⟩
    exact List.mem_take_iff_getElem.mpr ⟨index, by omega, of_decide_eq_true found⟩

theorem mem_names_iff : name ∈ cursor.names ↔
    ∃ position, Layout.indexOf? cursor.columns name = some position := by
  rw [← Option.isSome_iff_exists, Layout.indexOf?, List.findIdx?_isSome, List.any_eq_true, names,
    List.mem_map]
  simp only [decide_eq_true_eq]

theorem indices_eq_ok_iff : cursor.indices names = .ok indices ↔
    List.Forall₂ (fun name index => Layout.indexOf? cursor.columns name = some index) names
      indices := by
  rw [RowCursor.indices, Outcome.mapM_eq_ok_iff]
  refine iff_of_eq (congrArg (List.Forall₂ · names indices) ?_)
  funext name index
  cases Layout.indexOf? cursor.columns name <;> simp

theorem mem_indices_iff (resolved : cursor.indices names = .ok indices) :
    position ∈ indices ↔ ∃ name ∈ names, Layout.indexOf? cursor.columns name = some position := by
  have related := getElem?_of_forall₂ (indices_eq_ok_iff.mp resolved)
  simp only [List.mem_iff_getElem?, related, Option.bind_eq_some_iff]
  constructor
  · rintro ⟨place, name, here, found⟩
    exact ⟨name, ⟨place, here⟩, found⟩
  · rintro ⟨name, ⟨place, here⟩, found⟩
    exact ⟨place, name, here, found⟩

/-- Names are resolved if each of them is borne by a visible column. -/
theorem exists_indices_iff :
    (∃ indices, cursor.indices names = .ok indices) ↔ ∀ name ∈ names, name ∈ cursor.names := by
  simp only [mem_names_iff, ← Option.isSome_iff_exists]
  constructor
  · rintro ⟨indices, resolved⟩ name mem
    obtain ⟨place, here⟩ := List.mem_iff_getElem?.mp mem
    have related := indices_eq_ok_iff.mp resolved
    obtain ⟨length, each⟩ := List.forall₂_iff_get.mp related
    obtain ⟨inside, rfl⟩ := List.getElem?_eq_some_iff.mp here
    exact Option.isSome_iff_exists.mpr ⟨_, each place inside (length ▸ inside)⟩
  · intro borne
    exact ⟨_, indices_eq_ok_iff.mpr (forall₂_filterMap borne)⟩

end Indices

section Excluded

variable {kept : List Nat}

theorem length_names_le (cursor : RowCursor) : cursor.names.length ≤ cursor.width := by
  have columns : cursor.names.length = cursor.columns.length := List.length_map ..
  exact columns.trans_le (List.length_filterMap_le ..)

theorem Shows.mem_names_iff (shows' : Shows cursor kept result) :
    name ∈ result.names ↔ ∃ index ∈ kept, cursor.names[index]? = some name := by
  have width := shows'.width ▸ length_names_le result
  constructor
  · intro mem
    obtain ⟨position, inside, rfl⟩ := List.mem_iff_getElem.mp mem
    have here : kept[position]? = some kept[position] := List.getElem?_eq_getElem (by omega)
    refine ⟨kept[position], List.getElem_mem _, ?_⟩
    rw [← shows'.names position _ here, List.getElem?_eq_getElem inside]
  · rintro ⟨index, mem, named⟩
    obtain ⟨position, here⟩ := List.mem_iff_getElem?.mp mem
    rw [← shows'.names position index here] at named
    exact List.mem_of_getElem? named

/-- What is left after an exclusion are the columns that are not the first ones of the names. -/
theorem Within.shows_excludeNames (within : cursor.Within)
    (done : cursor.excludeNames names = .ok result) :
    Shows cursor ((List.range cursor.width).filter fun position => !cursor.isFirst names position)
      result := by
  obtain ⟨indices, resolved, rfl⟩ := Outcome.map_eq_ok_iff.mp done
  have dropped (position : Nat) : indices.contains position = cursor.isFirst names position := by
    rw [Bool.eq_iff_iff, List.contains_iff_mem, mem_indices_iff resolved, isFirst_iff]
    simp only [indexOf?_eq_some_iff]
  simp only [← dropped]
  exact within.shows (select_exclude cursor indices)

/-- An element that is seen again behind a position is there more than once. -/
theorem exists_again_iff {list : List String} :
    (∃ position : Nat, list[position]? = some name ∧ name ∈ list.take position) ↔
      1 < list.count name := by
  rw [← Nat.succ_le_iff, ← List.duplicate_iff_two_le_count]
  induction list with
  | nil => simp
  | cons first list ih =>
      rw [List.duplicate_cons_iff, ← ih, List.mem_iff_getElem?]
      constructor
      · rintro ⟨position, here, seen⟩
        cases position with
        | zero => cases seen
        | succ position =>
            rcases List.mem_cons.mp seen with rfl | seen
            · exact .inl ⟨rfl, position, here⟩
            · exact .inr ⟨position, here, seen⟩
      · rintro (⟨rfl, position, here⟩ | ⟨position, here, seen⟩)
        · exact ⟨position + 1, here, List.mem_cons_self⟩
        · exact ⟨position + 1, here, List.mem_cons_of_mem first seen⟩

/-- A name that was excluded is still there if it was borne more than once. -/
theorem Within.mem_names_excludeNames (within : cursor.Within)
    (done : cursor.excludeNames names = .ok result) (listed : name ∈ names) :
    name ∈ result.names ↔ 1 < cursor.names.count name := by
  rw [(within.shows_excludeNames done).mem_names_iff, ← exists_again_iff]
  refine exists_congr fun position => ?_
  rw [and_comm]
  refine and_congr_right fun here => ?_
  have inside : position < cursor.width :=
    (List.getElem?_eq_some_iff.mp here).1.trans_le (length_names_le cursor)
  have first : cursor.isFirst names position = !(cursor.names.take position).contains name := by
    rw [isFirst, here]
    simp [listed]
  simp [inside, first]

end Excluded

/-- Excluding names drops the first visible column of each name, and shows all others in their order.
It succeeds if each name is borne by a visible column, and a name is gone afterwards exactly if it was
borne by one column only. -/
theorem excludeNames_drops_first {chain : List Projection}
    (reached : (ofSource source).projectAll chain = .ok cursor) (names : List String) :
    ((∃ result, cursor.excludeNames names = .ok result) ↔ ∀ name ∈ names, name ∈ cursor.names) ∧
    ∀ result, cursor.excludeNames names = .ok result →
      Shows cursor ((List.range cursor.width).filter fun position => !cursor.isFirst names position)
        result ∧
      ∀ name ∈ names, name ∉ result.names ↔ cursor.names.count name = 1 := by
  obtain ⟨-, within⟩ := within_of_projectAll reached
  constructor
  · rw [← exists_indices_iff]
    simp only [excludeNames, Outcome.map_eq_ok_iff]
    constructor
    · rintro ⟨result, indices, resolved, -⟩
      exact ⟨indices, resolved⟩
    · rintro ⟨indices, resolved⟩
      exact ⟨_, indices, resolved, rfl⟩
  · intro result done
    refine ⟨within.shows_excludeNames done, fun name listed => ?_⟩
    obtain ⟨indices, resolved, -⟩ := Outcome.map_eq_ok_iff.mp done
    have borne := exists_indices_iff.mp ⟨indices, resolved⟩ name listed
    have positive := List.count_pos_iff.mpr borne
    rw [within.mem_names_excludeNames done listed]
    omega

/-- Of four columns, two of which are called `c`: the first one of them and the one called `b`. -/
theorem excludeNames_drops_first_of_four :
    let columns : Layout := [.text "c" .string, .text "b" .string, .text "a" .string, .text "c" .string]
    let source : RowSource := .ofRows columns [[.string "1", .string "2", .string "3", .string "4"]]
    ∃ cursor result, (ofSource source).projectAll [.select [1, 0, 2, 3]] = .ok cursor ∧
      cursor.excludeNames ["c", "b", "c"] = .ok result ∧ result.width = 2 ∧
      result.names[1]? = some "c" ∧ result.value 0 1 = .ok (.string "4") ∧ "b" ∉ result.names := by
  intro columns source
  have reached : (ofSource source).projectAll [.select [1, 0, 2, 3]] = .ok ⟨source, [1, 0, 2, 3]⟩ := rfl
  obtain ⟨succeeds, left⟩ := excludeNames_drops_first reached ["c", "b", "c"]
  obtain ⟨result, done⟩ := succeeds.mpr (by decide)
  obtain ⟨kept, gone⟩ := left result done
  exact ⟨_, result, reached, done, kept.width, kept.names 1 3 (by decide), kept.value 1 3 (by decide) 0,
    (gone "b" (by decide)).mpr (by decide)⟩

/-- A name that two columns bear, or one column that was selected twice, is still there. -/
theorem excludeNames_repeated :
    let columns : Layout := [.text "c" .string, .text "d" .string, .text "c" .string]
    let cursor : RowCursor := ofSource (.ofRows columns [[.string "1", .string "2", .string "3"]])
    (∃ result, cursor.excludeNames ["c"] = .ok result ∧ "c" ∈ result.names) ∧
    ∃ twice result, cursor.select [1, 1] = .ok twice ∧ twice.excludeNames ["d"] = .ok result ∧
      "d" ∈ result.names := by
  intro columns cursor
  exact ⟨⟨⟨cursor.source, [1, 2]⟩, rfl, by decide⟩,
    ⟨cursor.source, [1, 1]⟩, ⟨cursor.source, [1]⟩, rfl, rfl, by decide⟩

end RowStore.RowCursor
