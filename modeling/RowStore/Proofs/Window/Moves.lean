import Mathlib
import RowStore.Proofs.Window.Access
import RowStore.Proofs.Window.Searching

/-! What one operation can do to a window.

An operation moves position and limit within the window and leaves alone what the window covers. It
never sets a mark behind the limit; a mark that lies there afterwards was there before, and either
the limit is where it was or the end was trimmed. An operation that is refused, or looks for
something and does not find it, does nothing.
-/

namespace RowStore.Window

variable {α : Type}

/-- The window lies in its backing, and its position, limit and mark lie in it. -/
structure InBounds (window : Window α) : Prop where
  wellFormed : window.WellFormed
  mark_le : ∀ mark, window.mark = some mark → mark ≤ window.capacity

def Reply.failed : Except Error (Reply α) → Bool
  | .error _ => true
  | .ok (.found value) => !value
  | .ok _ => false

/-- What an operation may make of a window that it answers with `reply`. -/
structure Moves (step : Step α) (before : Window α) (reply : Except Error (Reply α))
    (after : Window α) : Prop where
  backing : after.backing = before.backing
  base : after.base = before.base
  capacity : after.capacity = before.capacity
  position_le : after.position ≤ after.limit
  limit_le : after.limit ≤ after.capacity
  mark : ∀ mark, after.mark = some mark →
    mark ≤ after.limit ∨
      before.mark = some mark ∧ (after.limit = before.limit ∨ step = .dropEndBlank)
  failed : Reply.failed reply = true → after = before

section Step

variable {window : Window α} {step : Step α} {reply : Except Error (Reply α)}

theorem Moves.stay (wellFormed : window.WellFormed) : Moves step window reply window where
  backing := rfl
  base := rfl
  capacity := rfl
  position_le := wellFormed.1
  limit_le := wellFormed.2.1
  mark _ set := .inr ⟨set, .inl rfl⟩
  failed _ := rfl

theorem Moves.jump (wellFormed : window.WellFormed) (succeeded : Reply.failed reply = false)
    {position : Nat} (within : position ≤ window.limit) :
    Moves step window reply { window with position } where
  backing := rfl
  base := rfl
  capacity := rfl
  position_le := within
  limit_le := wellFormed.2.1
  mark _ set := .inr ⟨set, .inl rfl⟩
  failed refused := absurd refused (by simp [succeeded])

theorem le_of_keptMark {mark : Option Nat} {limit kept : Nat}
    (stays : keptMark mark limit = some kept) : kept ≤ limit := by
  obtain ⟨-, within⟩ := Option.filter_eq_some_iff.mp stays
  simpa using within

theorem Moves.clip (succeeded : Reply.failed reply = false) {position limit : Nat}
    (lower : position ≤ limit) (upper : limit ≤ window.capacity) {mark : Option Nat}
    (kept : ∀ stays, mark = some stays → stays ≤ limit) :
    Moves step window reply { window with position, limit, mark } where
  backing := rfl
  base := rfl
  capacity := rfl
  position_le := lower
  limit_le := upper
  mark stays set := .inl (kept stays set)
  failed refused := absurd refused (by simp [succeeded])

theorem Moves.advance (wellFormed : window.WellFormed) {found : Option Nat}
    (inside : ∀ count, found = some count → count ≤ window.content.length) :
    Moves step window (.ok (.found (window.advance? found).1)) (window.advance? found).2 := by
  have size := length_content wellFormed
  have lower := wellFormed.1
  cases found with
  | none => exact .stay wellFormed
  | some count =>
      have room := inside count rfl
      rw [size, remaining] at room
      exact .jump wellFormed rfl (by omega)

theorem Moves.shrink (wellFormed : window.WellFormed) (kind : α → Bool) :
    Moves step window (.ok .done) (window.shrinkWhile kind) := by
  obtain ⟨lower, upper, -⟩ := shrinkWhile_wellFormed wellFormed kind
  simp only [shrinkWhile] at lower upper ⊢
  exact .clip rfl lower upper fun _ => le_of_keptMark

theorem Moves.setLimit (wellFormed : window.WellFormed) (limit : Nat) :
    Moves step window (window.attempt (window.setLimit limit)).1
      (window.attempt (window.setLimit limit)).2 := by
  rw [Window.setLimit]
  split_ifs with within
  · exact .clip rfl (Nat.min_le_right ..) within fun _ => le_of_keptMark
  · exact .stay wellFormed

end Step

variable [DecidableEq α] [Blank α] {window : Window α}

theorem Moves.strip (wellFormed : window.WellFormed) (opening closing : α) {step : Step α} :
    Moves step window (answering (window.strip opening closing)).1
      (answering (window.strip opening closing)).2 := by
  have trimmed : window.trim.WellFormed := shrinkWhile_wellFormed wellFormed _
  have size := length_content trimmed
  obtain ⟨lower, upper, -⟩ := trimmed
  have capacity : window.trim.capacity = window.capacity := rfl
  rw [remaining] at size
  rw [Window.strip]
  split_ifs with enclosed
  · have long := enclosed.1
    exact .clip rfl (by omega) (by omega) fun _ => le_of_keptMark
  · exact .stay wellFormed

theorem moves_apply (wellFormed : window.WellFormed) (step : Step α) :
    Moves step window (window.apply step).1 (window.apply step).2 := by
  obtain ⟨lower, upper, -⟩ := id wellFormed
  have size := length_content wellFormed
  rw [remaining] at size
  cases step with
  | get =>
      rw [apply, get]
      split_ifs with more
      · cases window.backing[window.base + window.position]? with
        | none => exact .stay wellFormed
        | some element => exact .jump wellFormed rfl (of_decide_eq_true more)
      · exact .stay wellFormed
  | peek => exact .stay wellFormed
  | «at» index => exact .stay wellFormed
  | setPosition position =>
      rw [apply, setPosition]
      split_ifs with within
      · exact .jump wellFormed rfl within
      · exact .stay wellFormed
  | setLimit limit => exact .setLimit wellFormed limit
  | mark =>
      refine .clip rfl lower upper fun stays set => ?_
      cases set
      exact lower
  | reset =>
      rw [apply, reset]
      split
      · exact .jump wellFormed rfl (Nat.min_le_right ..)
      · exact .stay wellFormed
  | flip => exact .clip rfl (Nat.zero_le _) (lower.trans upper) (by simp)
  | rewind => exact .jump wellFormed rfl (Nat.zero_le _)
  | clear => exact .clip rfl (Nat.zero_le _) (Nat.le_refl _) (by simp)
  | skipBlank =>
      have passed := (window.content.takeWhile_sublist Blank.isBlank).length_le
      exact .jump wellFormed rfl (by omega)
  | dropEndBlank =>
      have passed := (window.content.reverse.takeWhile_sublist Blank.isBlank).length_le
      rw [List.length_reverse] at passed
      refine ⟨rfl, rfl, rfl, ?_, ?_, fun mark set => .inr ⟨set, .inr rfl⟩, fun refused => ?_⟩
      · simp only [apply, Window.dropEndBlank, dropEndWhile]
        omega
      · simp only [apply, Window.dropEndBlank, dropEndWhile]
        omega
      · cases refused
  | trim => exact .shrink wellFormed _
  | shrinkWhile kind => exact .shrink wellFormed kind
  | decrement =>
      rw [apply, decrement]
      split_ifs with first
      · exact .stay wellFormed
      · exact .jump wellFormed rfl ((Nat.sub_le _ _).trans lower)
  | increment =>
      rw [apply, increment]
      split_ifs with more
      · exact .jump wellFormed rfl (of_decide_eq_true more)
      · exact .stay wellFormed
  | seek target =>
      refine .advance wellFormed fun count found => ?_
      obtain ⟨index, there, rfl⟩ := Option.map_eq_some_iff.mp found
      exact lt_length_of_indexOf? there
  | seekLive target escape =>
      refine .advance wellFormed fun count found => ?_
      obtain ⟨index, there, rfl⟩ := Option.map_eq_some_iff.mp found
      exact lt_length_of_liveIndexOf? there
  | seekSequence sequence =>
      rw [apply, seekSequence]
      split_ifs with none
      · exact .stay wellFormed
      · refine .advance wellFormed fun count found => ?_
        obtain ⟨index, there, rfl⟩ := Option.map_eq_some_iff.mp found
        exact add_length_le_of_occurrence? there
  | strip opening closing => exact .strip wellFormed opening closing
  | toList => exact .stay wellFormed

theorem InBounds.apply (inBounds : window.InBounds) (step : Step α) :
    (window.apply step).2.InBounds := by
  obtain ⟨wellFormed, marked⟩ := inBounds
  have moves := moves_apply wellFormed step
  have held := wellFormed.2.2
  refine ⟨⟨moves.position_le, moves.limit_le, ?_⟩, fun mark set => ?_⟩
  · rwa [moves.base, moves.capacity, moves.backing]
  · rcases moves.mark mark set with within | ⟨old, -⟩
    · exact within.trans moves.limit_le
    · exact moves.capacity ▸ marked mark old

theorem at?_apply (wellFormed : window.WellFormed) (step : Step α) (index : Nat) :
    (window.apply step).2.at? index = window.at? index := by
  have moves := moves_apply wellFormed step
  rw [at?, at?, moves.backing, moves.base, moves.capacity]

end RowStore.Window
