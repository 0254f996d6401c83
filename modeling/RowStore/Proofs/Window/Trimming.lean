import Mathlib
import RowStore.Proofs.Text.Trimming
import RowStore.Proofs.Window.Bounds

/-! What trimming leaves of a window.

A window is trimmed by moving both ends at once, or the front end and then the back end. Both leave
the core of its content, and so does a copy of the window in which delimiters are looked for.
-/

namespace RowStore

namespace Window

variable {α : Type} {window : Window α}

section Content

variable {kind : α → Bool}

/-- Moving the ends inwards takes elements away at both ends of the content. -/
theorem content_narrow (window : Window α) (front back : Nat) (mark : Option Nat) :
    content { window with position := window.position + front, limit := window.limit - back, mark } =
      (window.content.drop front).take (window.limit - back - (window.position + front)) := by
  simp only [content, ← List.drop_drop, ← Nat.add_assoc, List.drop_take, List.take_take]
  congr 1
  omega

theorem content_skipWhile (window : Window α) (kind : α → Bool) :
    (window.skipWhile kind).content = window.content.dropWhile kind := by
  have narrowed := content_narrow window (window.content.takeWhile kind).length 0 window.mark
  rw [drop_length_takeWhile] at narrowed
  refine narrowed.trans (List.take_of_length_le ?_)
  have room : window.content.length ≤ window.limit - window.position := List.length_take_le ..
  rw [← drop_length_takeWhile, List.length_drop]
  omega

theorem content_shrinkWhile (wellFormed : window.WellFormed) (kind : α → Bool) :
    (window.shrinkWhile kind).content = core kind window.content := by
  rw [core, rdropWhile_eq_take, ← drop_length_takeWhile, List.length_drop,
    length_content wellFormed, shrinkWhile, content_narrow, remaining]
  congr 1
  omega

/-- Moving the front end first and then the back end is moving both. -/
theorem ends_dropEndWhile_skipWhile (window : Window α) (kind : α → Bool) :
    ((window.skipWhile kind).dropEndWhile kind).position = (window.shrinkWhile kind).position ∧
      ((window.skipWhile kind).dropEndWhile kind).limit = (window.shrinkWhile kind).limit := by
  refine ⟨rfl, ?_⟩
  simp only [dropEndWhile, content_skipWhile, shrinkWhile, drop_length_takeWhile]
  rfl

/-- A window is left alone if its content is its own core and it has no mark behind the limit. -/
theorem shrinkWhile_eq_self
    (head : ∀ element, window.content.head? = some element → kind element = false)
    (last : ∀ element, window.content.getLast? = some element → kind element = false)
    (marked : keptMark window.mark window.limit = window.mark) :
    window.shrinkWhile kind = window := by
  have ahead : window.content.takeWhile kind = [] := takeWhile_eq_nil head
  have back : window.content.reverse.takeWhile kind = [] := takeWhile_eq_nil (by simpa using last)
  simp only [shrinkWhile, ahead, List.length_nil, List.drop_zero, back, Nat.add_zero, Nat.sub_zero,
    marked]

theorem keptMark_keptMark (mark : Option Nat) (limit : Nat) :
    keptMark (keptMark mark limit) limit = keptMark mark limit := by
  simp [keptMark]

theorem shrinkWhile_shrinkWhile (wellFormed : window.WellFormed) (kind : α → Bool) :
    (window.shrinkWhile kind).shrinkWhile kind = window.shrinkWhile kind := by
  have isCore := isCore_core kind window.content
  rw [← content_shrinkWhile wellFormed] at isCore
  exact shrinkWhile_eq_self isCore.head isCore.last (keptMark_keptMark ..)

end Content

variable [DecidableEq α] [Blank α] {trimmed : Window α}

section Delimiters

variable {inner : List α} {opening closing : α}

/-- Looking for delimiters around the content answers whether they begin and end what is left when
it is trimmed. If so, the content is what they enclose. -/
structure Strips (window trimmed : Window α) (opening closing : α) (outcome : Bool × Window α) :
    Prop where
  ran : window.perform (.strip opening closing) = .ok (answering outcome)
  found_iff : outcome.1 = true ↔ 2 ≤ trimmed.content.length ∧
    trimmed.content.head? = some opening ∧ trimmed.content.getLast? = some closing
  enclosed : outcome.1 = true → trimmed.content = opening :: (outcome.2.content ++ [closing])
  ends : outcome.1 = true →
    outcome.2.position = trimmed.position + 1 ∧ outcome.2.limit + 1 = trimmed.limit
  untouched : outcome.1 = false → outcome.2 = window

omit [DecidableEq α] [Blank α] in
theorem exists_between (long : 2 ≤ inner.length) (first : inner.head? = some opening)
    (last : inner.getLast? = some closing) :
    ∃ between, inner = opening :: (between ++ [closing]) := by
  obtain ⟨rest, rfl⟩ := List.head?_eq_some_iff.mp first
  have held : rest ≠ [] := by
    rintro rfl
    exact absurd long (by simp)
  obtain ⟨last', rest', rfl⟩ := List.exists_cons_of_ne_nil held
  rw [List.getLast?_cons_cons] at last
  obtain ⟨between, same⟩ := List.getLast?_eq_some_iff.mp last
  exact ⟨between, congrArg _ same⟩

theorem strips (wellFormed : window.WellFormed) (opening closing : α) :
    Strips window window.trim opening closing (window.strip opening closing) := by
  have ran : window.perform (.strip opening closing) =
      .ok (answering (window.strip opening closing)) := perform_eq wellFormed _
  have trimmed : window.trim.WellFormed := shrinkWhile_wellFormed wellFormed _
  have size := length_content trimmed
  rw [remaining] at size
  by_cases found : 2 ≤ window.trim.content.length ∧
      window.trim.content.head? = some opening ∧ window.trim.content.getLast? = some closing
  · obtain ⟨between, joined⟩ := exists_between found.1 found.2.1 found.2.2
    have length := congrArg List.length joined
    rw [size, List.length_cons, List.length_append, List.length_singleton] at length
    have inner := content_narrow window.trim 1 1 (keptMark window.mark (window.trim.limit - 1))
    have count : window.trim.limit - 1 - (window.trim.position + 1) = between.length := by omega
    rw [joined, List.drop_one, List.tail_cons, count, List.take_left] at inner
    rw [strip, if_pos found] at ran ⊢
    refine ⟨ran, by simpa using found, fun _ => inner ▸ joined, fun _ => ⟨rfl, ?_⟩, fun missed => ?_⟩
    · exact Nat.sub_add_cancel (by omega)
    · cases missed
  · rw [strip, if_neg found] at ran ⊢
    refine ⟨ran, by simpa using found, fun stripped => ?_, fun stripped => ?_, fun _ => rfl⟩
    · cases stripped
    · cases stripped

end Delimiters

/-- The window is trimmed to `trimmed`, and to the same ends if they are moved one after the other. -/
structure TrimsTo (window trimmed : Window α) : Prop where
  both : window.perform .trim = .ok (.ok .done, trimmed)
  again : trimmed.perform .trim = .ok (.ok .done, trimmed)
  oneByOne : ∃ skipped cut, window.perform .skipBlank = .ok (.ok .done, skipped) ∧
    skipped.perform .dropEndBlank = .ok (.ok .done, cut) ∧
    cut.position = trimmed.position ∧ cut.limit = trimmed.limit
  core : IsCore Blank.isBlank window.content trimmed.content
  blank : (∀ element ∈ window.content, Blank.isBlank element = true) →
    trimmed.content = [] ∧ trimmed.position = trimmed.limit

theorem trimsTo_trim (inBounds : window.InBounds) : window.TrimsTo window.trim where
  both := perform_eq inBounds.wellFormed .trim
  again := by
    have trimmed : window.trim.InBounds := inBounds.apply .trim
    rw [perform_eq trimmed.wellFormed]
    exact congrArg (fun again => Except.ok (Except.ok Reply.done, again))
      (shrinkWhile_shrinkWhile inBounds.wellFormed _)
  oneByOne := by
    obtain ⟨position, limit⟩ := ends_dropEndWhile_skipWhile window Blank.isBlank
    exact ⟨_, _, perform_eq inBounds.wellFormed .skipBlank,
      perform_eq (inBounds.apply .skipBlank).wellFormed .dropEndBlank, position, limit⟩
  core := by
    rw [trim, content_shrinkWhile inBounds.wellFormed]
    exact isCore_core ..
  blank all := by
    have trimmed : window.trim.WellFormed := shrinkWhile_wellFormed inBounds.wellFormed _
    have empty : window.trim.content = [] := by
      rw [trim, content_shrinkWhile inBounds.wellFormed]
      exact core_eq_nil_iff.mpr all
    have size := length_content trimmed
    rw [empty, List.length_nil, remaining] at size
    have lower := trimmed.1
    exact ⟨empty, by omega⟩

end Window

namespace Bank

/-- Whatever has been done, every window is trimmed to the core of its content in every way: at both
ends at once, at one end after the other, as a text is cut, and where delimiters are looked for. -/
theorem run_trims (history : List Action) :
    ∃ answers bank, run [] history = .ok (answers, bank) ∧
      (∀ window, .chars window ∈ bank → ∃ trimmed, window.TrimsTo trimmed ∧
        coreSlice? Text.isBlank window.content = some trimmed.content ∧
        Text.trim window.content = trimmed.content ∧
        window.Strips trimmed '"' '"' window.unquote ∧
        window.Strips trimmed '\x7b' '\x7d' window.unbrace ∧
        window.Strips trimmed '[' ']' window.unbracket) ∧
      ∀ window, .bytes window ∈ bank → ∃ trimmed, window.TrimsTo trimmed := by
  obtain ⟨answers, bank, ran, inBounds, -⟩ := exists_run inBounds_nil history
  refine ⟨answers, bank, ran, fun window member => ?_, fun window member => ?_⟩
  · have inside : window.InBounds := inBounds _ member
    have strips := Window.strips inside.wellFormed
    have trims := Window.trimsTo_trim inside
    exact ⟨window.trim, trims, trims.core.slice, (Text.trim_eq_core _).trans trims.core.eq.symm,
      strips _ _, strips _ _, strips _ _⟩
  · exact ⟨window.trim, Window.trimsTo_trim (inBounds _ member)⟩

end Bank

end RowStore
