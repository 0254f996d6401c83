import Mathlib
import RowStore.Window.Access

/-! Operations of a window never leave its backing.

Where the window lies in its backing, every element that an operation fetches is there, and what the
element by element reading arrives at is what the operation says of the content as a whole.
-/

namespace RowStore.Window

variable {α : Type} {window : Window α} {kind : α → Bool} {start stop : Nat}

section Between

/-- The elements from one index of a window to another. -/
def between (window : Window α) (start stop : Nat) : List α :=
  (window.backing.drop (window.base + start)).take (stop - start)

theorem content_eq_between (window : Window α) :
    window.content = window.between window.position window.limit := rfl

theorem exists_fetch (wellFormed : window.WellFormed) {index : Nat}
    (inside : index < window.capacity) :
    ∃ element, window.fetch index = .ok element ∧
      window.backing[window.base + index]? = some element := by
  obtain ⟨-, -, held⟩ := wellFormed
  have there : window.base + index < window.backing.length := by omega
  refine ⟨window.backing[window.base + index], ?_, List.getElem?_eq_getElem there⟩
  rw [fetch, List.getElem?_eq_getElem there]

theorem between_cons {element : α} (found : window.backing[window.base + start]? = some element)
    (nonempty : start < stop) :
    window.between start stop = element :: window.between (start + 1) stop := by
  obtain ⟨there, rfl⟩ := List.getElem?_eq_some_iff.mp found
  have longer : stop - start = (stop - (start + 1)) + 1 := by omega
  rw [between, between, List.drop_eq_getElem_cons there, longer, List.take_succ_cons, Nat.add_assoc]

theorem between_concat {element : α} (found : window.backing[window.base + stop]? = some element)
    (ordered : start ≤ stop) :
    window.between start (stop + 1) = window.between start stop ++ [element] := by
  have longer : stop + 1 - start = (stop - start) + 1 := by omega
  have place : window.base + start + (stop - start) = window.base + stop := by omega
  rw [between, between, longer, List.take_add_one, List.getElem?_drop, place, found]
  rfl

theorem drop_between (window : Window α) (start stop count : Nat) :
    (window.between start stop).drop count = window.between (start + count) stop := by
  rw [between, between, List.drop_take, List.drop_drop, Nat.add_assoc, Nat.sub_sub]

end Between

section Passing

theorem passAhead_eq (wellFormed : window.WellFormed) (kind : α → Bool) {start count : Nat}
    (inside : start + count ≤ window.capacity) :
    window.passAhead kind start count =
      .ok (start + ((window.between start (start + count)).takeWhile kind).length) := by
  induction count generalizing start with
  | zero => simp [passAhead, between]
  | succ count ih =>
      have here : start < window.capacity := by omega
      have further : start + 1 + count ≤ window.capacity := by omega
      obtain ⟨element, fetched, found⟩ := exists_fetch wellFormed here
      have rest := ih further
      have same : start + 1 + count = start + (count + 1) := by omega
      rw [same] at rest
      rw [passAhead, fetched, between_cons found (by omega), List.takeWhile_cons]
      simp only [bind, Except.bind]
      by_cases passed : kind element = true
      · rw [if_pos passed, if_pos passed, rest, List.length_cons]
        congr 1
        omega
      · rw [if_neg passed, if_neg passed]
        rfl

theorem passBack_eq (wellFormed : window.WellFormed) (kind : α → Bool) {stop count : Nat}
    (inside : stop ≤ window.capacity) (room : count ≤ stop) :
    window.passBack kind stop count =
      .ok (stop - ((window.between (stop - count) stop).reverse.takeWhile kind).length) := by
  induction count generalizing stop with
  | zero => simp [passBack, between]
  | succ count ih =>
      -- Backwards the last element comes first, and the rest ends before it.
      obtain ⟨last, rfl⟩ : ∃ last, stop = last + 1 := ⟨stop - 1, by omega⟩
      have here : last < window.capacity := by omega
      obtain ⟨element, fetched, found⟩ := exists_fetch wellFormed here
      have rest := ih here.le (Nat.le_of_succ_le_succ room)
      rw [passBack, Nat.add_sub_cancel, fetched, Nat.add_sub_add_right,
        between_concat found (by omega), List.reverse_append, List.reverse_singleton,
        List.singleton_append, List.takeWhile_cons]
      simp only [bind, Except.bind]
      by_cases passed : kind element = true
      · rw [if_pos passed, if_pos passed, rest, List.length_cons, Nat.add_sub_add_right]
      · rw [if_neg passed, if_neg passed]
        rfl

theorem passAhead_content (wellFormed : window.WellFormed) (kind : α → Bool) :
    window.passAhead kind window.position (window.limit - window.position) =
      .ok (window.position + (window.content.takeWhile kind).length) := by
  obtain ⟨lower, upper, -⟩ := id wellFormed
  have whole := Nat.add_sub_cancel' lower
  have ahead := passAhead_eq wellFormed kind (whole.trans_le upper)
  rwa [whole] at ahead

theorem passBack_content (wellFormed : window.WellFormed) (kind : α → Bool) {count : Nat}
    (inside : window.position + count ≤ window.limit) :
    window.passBack kind window.limit (window.limit - (window.position + count)) =
      .ok (window.limit - ((window.content.drop count).reverse.takeWhile kind).length) := by
  have back := passBack_eq wellFormed kind wellFormed.2.1 (Nat.sub_le _ (window.position + count))
  rwa [Nat.sub_sub_self inside, ← drop_between, ← content_eq_between] at back

theorem passBoth_eq (wellFormed : window.WellFormed) (kind : α → Bool) :
    window.passBoth kind = .ok (window.shrinkWhile kind) := by
  have size := length_content wellFormed
  have passed := (window.content.takeWhile_sublist kind).length_le
  have lower := wellFormed.1
  rw [remaining] at size
  rw [passBoth, passAhead_content wellFormed]
  simp only [bind, Except.bind]
  rw [passBack_content wellFormed kind (by omega)]
  rfl

end Passing

theorem stretch_eq (wellFormed : window.WellFormed) : window.stretch = .ok window.content := by
  obtain ⟨lower, upper, held⟩ := wellFormed
  exact if_pos ⟨lower, by omega⟩

theorem fetchSlice_eq (wellFormed : window.WellFormed) : window.fetchSlice = .ok window.slice :=
  if_pos wellFormed.1

theorem shrinkWhile_wellFormed (wellFormed : window.WellFormed) (kind : α → Bool) :
    (window.shrinkWhile kind).WellFormed := by
  obtain ⟨lower, upper, held⟩ := id wellFormed
  have size := length_content wellFormed
  have leading := (window.content.takeWhile_sublist kind).length_le
  have trailing :=
    ((window.content.drop (window.content.takeWhile kind).length).reverse.takeWhile_sublist
      kind).length_le
  rw [List.length_reverse, List.length_drop] at trailing
  rw [remaining] at size
  refine ⟨?_, ?_, held⟩ <;> simp only [shrinkWhile] <;> omega

variable [DecidableEq α] [Blank α]

theorem passDelimiters_eq (wellFormed : window.WellFormed) (opening closing : α) :
    window.passDelimiters opening closing = .ok (window.strip opening closing) := by
  have trimmed : window.trim.WellFormed := shrinkWhile_wellFormed wellFormed _
  have both : window.passBoth Blank.isBlank = .ok window.trim := passBoth_eq wellFormed _
  rw [passDelimiters, both]
  simp only [bind, Except.bind, stretch_eq trimmed, strip]
  split_ifs <;> rfl

/-- An operation run on the backing ends without a trap, and as the operation on the content. -/
theorem perform_eq (wellFormed : window.WellFormed) (step : Step α) :
    window.perform step = .ok (window.apply step) := by
  obtain ⟨lower, upper, -⟩ := id wellFormed
  have inside (more : window.hasRemaining = true) : window.position < window.capacity := by
    rw [hasRemaining, decide_eq_true_eq] at more
    omega
  cases step with
  | get =>
      rw [perform, apply, get]
      by_cases more : window.hasRemaining = true
      · obtain ⟨element, fetched, found⟩ := exists_fetch wellFormed (inside more)
        simp only [if_pos more, fetched, found, bind, Except.bind, pure, Except.pure]
      · simp only [if_neg more]
  | peek =>
      rw [perform, apply, peek?]
      by_cases more : window.hasRemaining = true
      · obtain ⟨element, fetched, found⟩ := exists_fetch wellFormed (inside more)
        simp only [if_pos more, fetched, found, bind, Except.bind, pure, Except.pure]
      · simp only [if_neg more]
  | «at» index =>
      rw [perform, apply, at?]
      by_cases covered : index < window.capacity
      · obtain ⟨element, fetched, found⟩ := exists_fetch wellFormed covered
        simp only [if_pos covered, fetched, found, bind, Except.bind, pure, Except.pure]
      · simp only [if_neg covered]
  | skipBlank =>
      rw [perform, passAhead_content wellFormed]
      rfl
  | dropEndBlank =>
      have none : window.position + 0 ≤ window.limit := lower
      have back := passBack_content wellFormed Blank.isBlank none
      rw [Nat.add_zero, List.drop_zero] at back
      rw [perform, back]
      rfl
  | trim => rw [perform, passBoth_eq wellFormed]; rfl
  | shrinkWhile kind => rw [perform, passBoth_eq wellFormed]; rfl
  | seek target => rw [perform, stretch_eq wellFormed]; rfl
  | seekLive target escape => rw [perform, stretch_eq wellFormed]; rfl
  | seekSequence sequence =>
      rw [perform, stretch_eq wellFormed, apply, seekSequence]
      split_ifs <;> rfl
  | strip opening closing => rw [perform, passDelimiters_eq wellFormed]; rfl
  | toList => rw [perform, stretch_eq wellFormed]; rfl
  | _ => rfl

end RowStore.Window
