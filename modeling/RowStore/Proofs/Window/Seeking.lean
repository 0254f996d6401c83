import Mathlib
import RowStore.Proofs.Window.Access
import RowStore.Proofs.Window.Searching

/-! Where a window is moved when something is looked for.

The position is moved behind the first place in the content that is looked for. If there is none,
nothing is done. Looked for again and again, live targets are found one by one.
-/

namespace RowStore.Window

variable {α : Type}

section Steps

variable [DecidableEq α] [Blank α] {window : Window α}

/-- A step looks for the first index of the content at which something holds. It moves the position
behind what stands there, which is of a size, and does nothing else. -/
structure Seeks (window : Window α) (step : Step α) (size : Nat) (holds : Nat → Prop)
    (found : Bool) (next : Window α) : Prop where
  ran : window.perform step = .ok (.ok (.found found), next)
  found_iff : found = true ↔ ∃ index, holds index
  moved : found = true → ∃ index, First holds index ∧
    next = { window with position := window.position + index + size }
  still : found = false → next = window

theorem exists_seeks {step : Step α} {size : Nat} {holds : Nat → Prop} {search : Option Nat}
    (ran : window.perform step = .ok (answering (window.advance? (search.map (· + size)))))
    (searched : ∀ index, search = some index ↔ First holds index) :
    ∃ found next, window.Seeks step size holds found next := by
  cases result : search with
  | some index =>
      have first := (searched index).mp result
      rw [result] at ran
      refine ⟨true, _, ran, ?_, ?_, by simp⟩
      · simpa using ⟨index, first.1⟩
      · intro _
        exact ⟨index, first, by simp [Nat.add_assoc]⟩
  | none =>
      have nowhere : ¬ ∃ index, holds index := by
        intro somewhere
        obtain ⟨index, first⟩ := exists_first somewhere
        have found := (searched index).mpr first
        rw [result] at found
        contradiction
      rw [result] at ran
      exact ⟨false, window, ran, by simpa using nowhere, by simp, fun _ => rfl⟩

theorem exists_seeks_seekLive (wellFormed : window.WellFormed) (target escape : α) :
    ∃ found next, window.Seeks (.seekLive target escape) 1
      (IsLive target escape window.content) found next :=
  exists_seeks (perform_eq wellFormed _) fun _ => liveIndexOf?_false_eq_some_iff

theorem perform_seekSequence (wellFormed : window.WellFormed) (sequence : List α) :
    window.perform (.seekSequence sequence) =
      .ok (answering (window.advance?
        ((occurrence? sequence window.content).map (· + sequence.length)))) := by
  rw [perform_eq wellFormed, apply, seekSequence]
  cases sequence with
  | nil =>
      have start : occurrence? [] window.content = some 0 :=
        occurrence?_eq_some_iff.mpr (first_zero_iff.mpr List.nil_prefix)
      rw [start]
      rfl
  | cons element rest => rfl

theorem perform_seekSequence_singleton (wellFormed : window.WellFormed) (target : α) :
    window.perform (.seekSequence [target]) = window.perform (.seek target) := by
  have same : occurrence? [target] window.content = indexOf? target window.content := by
    ext index
    simp only [occurrence?_eq_some_iff, indexOf?_eq_some_iff, First, occursAt_singleton_iff]
  rw [perform_seekSequence wellFormed, perform_eq wellFormed, same]
  rfl

/-- Windows with the same content are moved alike, whatever lies around it. -/
theorem perform_seekSequence_of_content {other : Window α} (wellFormed : window.WellFormed)
    (wellFormed' : other.WellFormed) (same : other.content = window.content) {sequence : List α}
    {found : Bool} {next : Window α}
    (ran : window.perform (.seekSequence sequence) = .ok (.ok (.found found), next)) :
    other.perform (.seekSequence sequence) =
      .ok (.ok (.found found),
        { other with position := other.position + (next.position - window.position) }) := by
  rw [perform_seekSequence wellFormed] at ran
  rw [perform_seekSequence wellFormed', same]
  generalize occurrence? sequence window.content = search at ran ⊢
  cases search with
  | none =>
      cases ran
      simp [advance?, answering]
  | some index =>
      cases ran
      simp [advance?, answering]

omit [DecidableEq α] [Blank α] in
theorem content_advance (window : Window α) (count : Nat) :
    content { window with position := window.position + count } = window.content.drop count := by
  simp only [content, List.drop_take, List.drop_drop, Nat.add_assoc, Nat.sub_sub]

/-- Run operations one after another. -/
def performAll : Window α → List (Step α) → Except Trap (List (Except Error (Reply α)) × Window α)
  | window, [] => .ok ([], window)
  | window, step :: rest => do
      let (reply, next) ← window.perform step
      let (replies, last) ← performAll next rest
      return (reply :: replies, last)

theorem performAll_cons {next last : Window α} {step : Step α} {rest : List (Step α)}
    {reply : Except Error (Reply α)} {replies : List (Except Error (Reply α))}
    (ran : window.perform step = .ok (reply, next))
    (later : next.performAll rest = .ok (replies, last)) :
    window.performAll (step :: rest) = .ok (reply :: replies, last) := by
  simp only [performAll, ran, bind, Except.bind, later]
  rfl

/-- The positions behind the live targets of the content, in order. -/
def livePositions (window : Window α) (target escape : α) : List Nat :=
  (liveIndices target escape window.content).map (window.position + · + 1)

theorem seekLive_cases (wellFormed : window.WellFormed) {target escape : α}
    (distinct : target ≠ escape) :
    window.perform (.seekLive target escape) = .ok (.ok (.found false), window) ∧
        window.livePositions target escape = [] ∨
      ∃ position, window.perform (.seekLive target escape) =
          .ok (.ok (.found true), { window with position }) ∧
        WellFormed { window with position } ∧
        window.livePositions target escape =
          position :: livePositions { window with position } target escape := by
  obtain ⟨found, next, seeks⟩ := exists_seeks_seekLive wellFormed target escape
  have size := length_content wellFormed
  obtain ⟨lower, upper, held⟩ := id wellFormed
  rw [remaining] at size
  cases found with
  | false =>
      have nowhere := seeks.found_iff.not.mp (by simp)
      obtain rfl := seeks.still rfl
      rw [livePositions, liveIndices_eq_nil (not_exists.mp nowhere)]
      exact .inl ⟨seeks.ran, rfl⟩
  | true =>
      obtain ⟨index, first, rfl⟩ := seeks.moved rfl
      obtain ⟨inside, -⟩ := List.getElem?_eq_some_iff.mp first.1.1
      have left : content { window with position := window.position + index + 1 } =
          window.content.drop (index + 1) := content_advance window (index + 1)
      have within : window.position + index + 1 ≤ window.limit := by omega
      refine .inr ⟨_, seeks.ran, ⟨within, upper, held⟩, ?_⟩
      rw [livePositions, liveIndices_eq_cons distinct first, livePositions, left]
      simp [Nat.add_assoc]

theorem performAll_seekLive (wellFormed : window.WellFormed) {target escape : α}
    (distinct : target ≠ escape) (count : Nat) :
    window.performAll (.replicate count (.seekLive target escape)) =
      .ok ((List.range count).map fun call =>
          .ok (.found (call < (window.livePositions target escape).length)),
        { window with
          position := ((window.livePositions target escape).take count).getLastD window.position }) := by
  induction count generalizing window with
  | zero => simp [performAll]
  | succ count ih =>
      rw [List.replicate_succ, List.range_succ_eq_map, List.map_cons, List.map_map]
      rcases seekLive_cases wellFormed distinct with ⟨ran, none⟩ | ⟨position, ran, inside, some⟩
      · rw [performAll_cons ran (ih wellFormed), none]
        simp [Function.comp_def]
      · rw [performAll_cons ran (ih inside), some, List.take_succ_cons, List.getLastD_cons]
        simp [Function.comp_def]

/-- Looking for a target past escapes finds the first live one. Each further call finds the next live
target of the same content, until there is none, as no match leaves an escape behind it. -/
theorem seekLive_exact (wellFormed : window.WellFormed) (target escape : α) :
    (∃ found next, window.Seeks (.seekLive target escape) 1
      (IsLive target escape window.content) found next) ∧
    (target ≠ escape →
      (∀ index, window.content[index]? = some target → ∀ later,
        IsLive target escape (window.content.drop (index + 1)) later ↔
          IsLive target escape window.content (index + 1 + later)) ∧
      ∀ count, window.performAll (.replicate count (.seekLive target escape)) =
        .ok ((List.range count).map fun call =>
            .ok (.found (call < (window.livePositions target escape).length)),
          { window with
            position :=
              ((window.livePositions target escape).take count).getLastD window.position })) :=
  ⟨exists_seeks_seekLive wellFormed target escape, fun distinct =>
    ⟨fun _ here => isLive_drop_iff distinct here, performAll_seekLive wellFormed distinct⟩⟩

/-- Two escaped commas, the second one behind a live one, and two live ones. -/
theorem seekLive_exact_three_calls :
    (ofList ['x', '\\', ',', 'y', ',', '\\', ',', 'z', ',']).WellFormed ∧ ',' ≠ '\\' ∧
      (ofList ['x', '\\', ',', 'y', ',', '\\', ',', 'z', ',']).performAll
          (.replicate 3 (.seekLive ',' '\\')) =
        .ok ([.ok (.found true), .ok (.found true), .ok (.found false)],
          { ofList ['x', '\\', ',', 'y', ',', '\\', ',', 'z', ','] with position := 9 }) := by
  have inside := ofList_wellFormed ['x', '\\', ',', 'y', ',', '\\', ',', 'z', ',']
  have distinct : ',' ≠ '\\' := by decide
  have live : livePositions (ofList ['x', '\\', ',', 'y', ',', '\\', ',', 'z', ',']) ',' '\\' =
      [5, 9] := by decide
  have run := ((seekLive_exact inside ',' '\\').2 distinct).2 3
  rw [live] at run
  exact ⟨inside, distinct, run⟩

/-- Looking for a sequence finds where it first occurs in the content, and nothing but the content
matters. The empty sequence is found on the spot, and that of one element like the element. -/
theorem seekSequence_exact (wellFormed : window.WellFormed) (sequence : List α) :
    ∃ found next, window.Seeks (.seekSequence sequence) sequence.length
        (OccursAt sequence window.content) found next ∧
      (found = true ↔ sequence <:+: window.content) ∧
      (sequence = [] → found = true ∧ next = window) ∧
      (∀ target, sequence = [target] →
        window.perform (.seek target) = .ok (.ok (.found found), next)) ∧
      ∀ other : Window α, other.WellFormed → other.content = window.content →
        other.perform (.seekSequence sequence) = .ok (.ok (.found found),
          { other with position := other.position + (next.position - window.position) }) := by
  obtain ⟨found, next, seeks⟩ := exists_seeks (perform_seekSequence wellFormed sequence)
    fun index => occurrence?_eq_some_iff
  refine ⟨found, next, seeks, seeks.found_iff.trans exists_occursAt_iff, ?empty, ?single, ?alike⟩
  case empty =>
    intro none
    subst none
    have ran : window.perform (.seekSequence []) = .ok (.ok (.found true), window) := rfl
    cases ran.symm.trans seeks.ran
    exact ⟨rfl, rfl⟩
  case single =>
    intro target one
    subst one
    rw [← perform_seekSequence_singleton wellFormed, seeks.ran]
  case alike =>
    intro other wellFormed' same
    exact perform_seekSequence_of_content wellFormed wellFormed' same seeks.ran

/-- In `aaba`, with `b` before and behind it: `aba` begins inside a failed match, and `bab` goes on
beyond the limit. -/
theorem seekSequence_exact_inside_and_across :
    WellFormed ⟨['b', 'a', 'a', 'b', 'a', 'b'], 0, 6, 1, 5, none⟩ ∧
      Seeks ⟨['b', 'a', 'a', 'b', 'a', 'b'], 0, 6, 1, 5, none⟩ (.seekSequence ['a', 'b', 'a']) 3
        (OccursAt ['a', 'b', 'a'] ['a', 'a', 'b', 'a']) true
        ⟨['b', 'a', 'a', 'b', 'a', 'b'], 0, 6, 5, 5, none⟩ ∧
      Seeks ⟨['b', 'a', 'a', 'b', 'a', 'b'], 0, 6, 1, 5, none⟩ (.seekSequence ['b', 'a', 'b']) 3
        (OccursAt ['b', 'a', 'b'] ['a', 'a', 'b', 'a']) false
        ⟨['b', 'a', 'a', 'b', 'a', 'b'], 0, 6, 1, 5, none⟩ := by
  have inside : WellFormed ⟨['b', 'a', 'a', 'b', 'a', 'b'], 0, 6, 1, 5, none⟩ := by
    simp [WellFormed]
  refine ⟨inside, ?within, ?across⟩
  case within =>
    obtain ⟨found, next, seeks, -⟩ := seekSequence_exact inside ['a', 'b', 'a']
    cases seeks.ran
    exact seeks
  case across =>
    obtain ⟨found, next, seeks, -⟩ := seekSequence_exact inside ['b', 'a', 'b']
    cases seeks.ran
    exact seeks

end Steps

end RowStore.Window
