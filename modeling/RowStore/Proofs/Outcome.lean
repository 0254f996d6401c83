import Mathlib
import RowStore.Fault

/-! Steps that can fail, one after another and one for each element of a list.

All steps of a list succeed exactly when each one does, and then the answers stand in the order of
the elements.
-/

namespace RowStore.Outcome

variable {α β ε : Type}

theorem bind_eq_ok_iff {first : Except ε α} {next : α → Except ε β} {answer : β} :
    (first >>= next) = .ok answer ↔ ∃ found, first = .ok found ∧ next found = .ok answer := by
  cases first with
  | error reason =>
      constructor
      · intro same
        cases same
      · rintro ⟨found, same, -⟩
        cases same
  | ok found =>
      constructor
      · intro same
        exact ⟨found, rfl, same⟩
      · rintro ⟨_, ⟨⟩, same⟩
        exact same

theorem bind_eq_error_iff {first : Except ε α} {next : α → Except ε β} {reason : ε} :
    (first >>= next) = .error reason ↔
      first = .error reason ∨ ∃ found, first = .ok found ∧ next found = .error reason := by
  cases first <;> simp [bind, Except.bind]

/-- What follows a step only matters at what the step answers. -/
theorem bind_congr {first : Except ε α} {next next' : α → Except ε β}
    (same : ∀ found, first = .ok found → next found = next' found) :
    first >>= next = first >>= next' := by
  cases first with
  | error reason => rfl
  | ok found => exact same found rfl

/-- A check that throws leaves only the runs on which it does not. -/
theorem guard_eq_ok_iff {refused : Prop} [Decidable refused] {reason : ε}
    {unreached : α → Except ε β} {next : Except ε β} {answer : β} :
    (if refused then throw reason >>= unreached else next) = .ok answer ↔
      ¬ refused ∧ next = .ok answer := by
  by_cases holds : refused
  · rw [if_pos holds]
    constructor
    · intro same
      cases same
    · rintro ⟨fails, -⟩
      exact absurd holds fails
  · rw [if_neg holds]
    exact ⟨fun same => ⟨holds, same⟩, fun both => both.2⟩

theorem map_eq_ok_iff {result : Except ε α} {change : α → β} {answer : β} :
    result.map change = .ok answer ↔ ∃ found, result = .ok found ∧ change found = answer := by
  cases result <;> simp [Except.map]

theorem map_eq_error_iff {result : Except ε α} {change : α → β} {reason : ε} :
    result.map change = .error reason ↔ result = .error reason := by
  cases result <;> simp [Except.map]

theorem mapError_eq_ok_iff {δ : Type} {result : Except ε α} {change : ε → δ} {answer : α} :
    result.mapError change = .ok answer ↔ result = .ok answer := by
  cases result <;> simp [Except.mapError]

theorem mapM_eq_ok_iff {step : α → Except ε β} {list : List α} {answers : List β} :
    list.mapM step = .ok answers ↔ List.Forall₂ (fun x answer => step x = .ok answer) list answers := by
  induction list generalizing answers with
  | nil =>
      rw [List.mapM_nil, List.forall₂_nil_left_iff]
      constructor
      · intro same
        cases same
        rfl
      · rintro rfl
        rfl
  | cons x list ih =>
      rw [List.mapM_cons, List.forall₂_cons_left_iff, bind_eq_ok_iff]
      simp only [bind_eq_ok_iff, ih]
      constructor
      · rintro ⟨answer, found, others, rest, same⟩
        cases same
        exact ⟨answer, others, found, rest, rfl⟩
      · rintro ⟨answer, others, found, rest, rfl⟩
        exact ⟨answer, found, others, rest, rfl⟩

/-- If all steps succeed, so does each one. -/
theorem exists_of_mapM_eq_ok {step : α → Except ε β} {list : List α} {answers : List β}
    (done : list.mapM step = .ok answers) {x : α} (mem : x ∈ list) : ∃ answer, step x = .ok answer := by
  rw [mapM_eq_ok_iff, List.forall₂_iff_get] at done
  obtain ⟨length, each⟩ := done
  obtain ⟨index, inside, rfl⟩ := List.mem_iff_getElem.mp mem
  exact ⟨_, each index inside (length ▸ inside)⟩

/-- A step that was refused stops the others. -/
theorem exists_of_mapM_eq_error {step : α → Except ε β} {list : List α} {reason : ε}
    (refused : list.mapM step = .error reason) : ∃ x ∈ list, step x = .error reason := by
  induction list with
  | nil => cases refused
  | cons x list ih =>
      rw [List.mapM_cons, bind_eq_error_iff] at refused
      rcases refused with here | ⟨answer, -, later⟩
      · exact ⟨x, List.mem_cons_self, here⟩
      · rcases bind_eq_error_iff.mp later with rest | ⟨answers, -, same⟩
        · obtain ⟨y, mem, failed⟩ := ih rest
          exact ⟨y, List.mem_cons_of_mem x mem, failed⟩
        · cases same

theorem exists_mapM_eq_ok {step : α → Except ε β} {kind : β → Prop} {list : List α}
    (steps : ∀ x ∈ list, ∃ answer, step x = .ok answer ∧ kind answer) :
    ∃ answers, list.mapM step = .ok answers ∧ ∀ answer ∈ answers, kind answer := by
  simp only [mapM_eq_ok_iff]
  induction list with
  | nil => exact ⟨[], .nil, by simp⟩
  | cons x list ih =>
      obtain ⟨⟨answer, found, here⟩, others⟩ := List.forall_mem_cons.mp steps
      obtain ⟨answers, rest, there⟩ := ih others
      exact ⟨answer :: answers, .cons found rest, List.forall_mem_cons.mpr ⟨here, there⟩⟩

/-- Of two steps for each element, where the second one answers with a change of the answer of the
first. -/
theorem exists_mapM_eq_ok_map {γ : Type} {first : α → Except ε β} {second : α → Except ε γ}
    {change : β → γ} {list : List α}
    (steps : ∀ x ∈ list, ∃ answer, first x = .ok answer ∧ second x = .ok (change answer)) :
    ∃ answers, list.mapM first = .ok answers ∧ list.mapM second = .ok (answers.map change) := by
  simp only [mapM_eq_ok_iff]
  induction list with
  | nil => exact ⟨[], .nil, .nil⟩
  | cons x list ih =>
      obtain ⟨⟨answer, found, changed⟩, others⟩ := List.forall_mem_cons.mp steps
      obtain ⟨answers, firsts, seconds⟩ := ih others
      exact ⟨answer :: answers, .cons found firsts, .cons changed seconds⟩

theorem forM_cons (check : α → Except ε Unit) (x : α) (list : List α) :
    (x :: list).forM check = (check x >>= fun _ => list.forM check) := rfl

theorem forM_eq_ok_iff {check : α → Except ε Unit} {list : List α} {done : Unit} :
    list.forM check = .ok done ↔ ∀ x ∈ list, check x = .ok () := by
  induction list with
  | nil => exact ⟨fun _ => by simp, fun _ => rfl⟩
  | cons x list ih =>
      rw [forM_cons, List.forall_mem_cons, ← ih, bind_eq_ok_iff]
      constructor
      · rintro ⟨_, first, rest⟩
        exact ⟨first, rest⟩
      · rintro ⟨first, rest⟩
        exact ⟨(), first, rest⟩

/-- The first check that fails gives the reason. -/
theorem forM_eq_error_iff {check : α → Except ε Unit} {list : List α} {reason : ε} :
    list.forM check = .error reason ↔ ∃ before x after, list = before ++ x :: after ∧
      (∀ y ∈ before, check y = .ok ()) ∧ check x = .error reason := by
  induction list with
  | nil =>
      constructor
      · intro refused
        cases refused
      · rintro ⟨before, x, after, same, -⟩
        cases before <;> cases same
  | cons x list ih =>
      rw [forM_cons, bind_eq_error_iff]
      constructor
      · rintro (here | ⟨_, passed, later⟩)
        · exact ⟨[], x, list, rfl, by simp, here⟩
        · obtain ⟨before, y, after, rfl, earlier, failed⟩ := ih.mp later
          exact ⟨x :: before, y, after, rfl, List.forall_mem_cons.mpr ⟨passed, earlier⟩, failed⟩
      · rintro ⟨before, y, after, same, earlier, failed⟩
        cases before with
        | nil =>
            cases same
            exact .inl failed
        | cons first before =>
            cases same
            obtain ⟨passed, earlier⟩ := List.forall_mem_cons.mp earlier
            exact .inr ⟨(), passed, ih.mpr ⟨before, y, after, rfl, earlier, failed⟩⟩

end RowStore.Outcome
