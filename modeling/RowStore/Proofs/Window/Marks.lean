import Mathlib
import RowStore.Proofs.Window.Bounds

/-! Where a mark can lie.

A mark is set at the position, so it starts out within the limit, and what lowers the limit forgets
a mark that would come to lie behind it. Trimming the end is the exception: it lowers the limit and
leaves the mark alone, so a mark among the blanks at the end comes to lie behind the limit.
-/

namespace RowStore

namespace Window

variable {α : Type} {window : Window α}

theorem le_length_takeWhile_iff {kind : α → Bool} {list : List α} {count : Nat} :
    count ≤ (list.takeWhile kind).length ↔
      ∀ index < count, ∃ element, list[index]? = some element ∧ kind element = true := by
  induction list generalizing count with
  | nil =>
      rw [List.takeWhile_nil, List.length_nil, Nat.le_zero]
      constructor
      · rintro rfl index early
        exact absurd early (Nat.not_lt_zero _)
      · intro all
        by_contra some
        obtain ⟨element, there, -⟩ := all 0 (Nat.pos_of_ne_zero some)
        cases there
  | cons first rest ih =>
      cases count with
      | zero => simp
      | succ count =>
          rw [List.takeWhile_cons, Nat.forall_lt_succ_left]
          simp only [List.getElem?_cons_zero, List.getElem?_cons_succ, Option.some.injEq,
            exists_eq_left', ← ih]
          split_ifs with passed <;> simp [passed]

theorem getElem?_content (wellFormed : window.WellFormed) {index : Nat}
    (inside : window.position + index < window.limit) :
    window.content[index]? = window.at? (window.position + index) := by
  have covered := wellFormed.2.1
  rw [content, List.getElem?_take_of_lt (by omega), List.getElem?_drop, at?, if_pos (by omega),
    Nat.add_assoc]

/-- The mark is absent or at most the limit. -/
def MarkWithin (window : Window α) : Prop := ∀ mark, window.mark = some mark → mark ≤ window.limit

variable [DecidableEq α] [Blank α]

/-- The mark lies behind the position, and only blanks reach from right before it to the limit. -/
def MarkAmongEndBlanks (window : Window α) : Prop :=
  ∃ mark, window.mark = some mark ∧ window.position < mark ∧
    ∀ index, mark ≤ index + 1 → index < window.limit →
      ∃ element, window.at? index = some element ∧ Blank.isBlank element = true

omit [DecidableEq α] in
theorem lt_of_dropEndBlank (wellFormed : window.WellFormed) {mark : Nat}
    (within : mark ≤ window.limit) :
    window.dropEndBlank.limit < mark ↔ window.position < mark ∧
      ∀ index, mark ≤ index + 1 → index < window.limit →
        ∃ element, window.at? index = some element ∧ Blank.isBlank element = true := by
  have size := length_content wellFormed
  have lower := wellFormed.1
  rw [remaining] at size
  have dropped := (window.content.reverse.takeWhile_sublist Blank.isBlank).length_le
  rw [List.length_reverse] at dropped
  -- The content counted from its end is the window counted back from the limit.
  have fromEnd {back : Nat} (inside : window.position + back < window.limit) :
      window.content.reverse[back]? = window.at? (window.limit - 1 - back) := by
    rw [List.getElem?_reverse (by omega), getElem?_content wellFormed (by omega)]
    congr 1
    omega
  have lowered : window.dropEndBlank.limit < mark ↔
      window.limit - mark + 1 ≤ (window.content.reverse.takeWhile Blank.isBlank).length := by
    simp only [dropEndBlank, dropEndWhile]
    omega
  rw [lowered]
  constructor
  · intro enough
    refine ⟨by omega, fun index lower' upper' => ?_⟩
    have blank := le_length_takeWhile_iff.mp enough (window.limit - 1 - index) (by omega)
    rwa [fromEnd (by omega), Nat.sub_sub_self (by omega)] at blank
  · rintro ⟨behind, blanks⟩
    refine le_length_takeWhile_iff.mpr fun back early => ?_
    rw [fromEnd (by omega)]
    exact blanks _ (by omega) (by omega)

omit [DecidableEq α] in
theorem markWithin_dropEndBlank (wellFormed : window.WellFormed) (within : window.MarkWithin) :
    window.dropEndBlank.MarkWithin ↔ ¬ window.MarkAmongEndBlanks := by
  have same : window.dropEndBlank.mark = window.mark := rfl
  constructor
  · rintro within' ⟨mark, set, stranded⟩
    have behind := (lt_of_dropEndBlank wellFormed (within mark set)).mpr stranded
    exact absurd (within' mark (same.trans set)) (Nat.not_le.mpr behind)
  · intro clear mark set
    rw [same] at set
    by_contra behind
    exact clear ⟨mark, set,
      (lt_of_dropEndBlank wellFormed (within mark set)).mp (Nat.not_le.mp behind)⟩

/-- One operation takes the mark out of the limit in one case only. -/
theorem markWithin_apply_iff (wellFormed : window.WellFormed) (within : window.MarkWithin)
    (step : Step α) :
    (window.apply step).2.MarkWithin ↔ ¬ (step = .dropEndBlank ∧ window.MarkAmongEndBlanks) := by
  by_cases trims : step = .dropEndBlank
  · subst trims
    rw [and_iff_right rfl]
    exact markWithin_dropEndBlank wellFormed within
  · refine iff_of_true (fun mark set => ?_) fun stranded => trims stranded.1
    rcases (moves_apply wellFormed step).mark mark set with inside | ⟨old, same | trimmed⟩
    · exact inside
    · exact same ▸ within mark old
    · exact absurd trimmed trims

end Window

namespace Register

open Bank (Operation Answer)

def MarkWithin : Register → Prop
  | chars window => window.MarkWithin
  | bytes window => window.MarkWithin

/-- Is this the operation that trims the end, and does the mark lie among the blanks there? -/
def Strands : Register → Operation → Prop
  | chars window, .chars step => step = .dropEndBlank ∧ window.MarkAmongEndBlanks
  | bytes window, .bytes step => step = .dropEndBlank ∧ window.MarkAmongEndBlanks
  | _, _ => False

variable {register next : Register} {operation : Operation} {answer : Answer}

theorem markWithin_of_unmarked (unmarked : register.mark = none) : register.MarkWithin := by
  cases register with
  | chars window =>
      intro mark set
      cases unmarked.symm.trans set
  | bytes window =>
      intro mark set
      cases unmarked.symm.trans set

theorem markWithin_operate (inBounds : register.InBounds) (within : register.MarkWithin)
    (ran : register.operate operation = .ok (some (answer, next))) :
    next.MarkWithin ↔ ¬ register.Strands operation := by
  cases register with
  | chars window =>
      cases operation with
      | bytes step => cases ran
      | chars step =>
          rw [operate_chars inBounds step] at ran
          cases ran
          exact Window.markWithin_apply_iff (Window.InBounds.wellFormed inBounds) within step
  | bytes window =>
      cases operation with
      | chars step => cases ran
      | bytes step =>
          rw [operate_bytes inBounds step] at ran
          cases ran
          exact Window.markWithin_apply_iff (Window.InBounds.wellFormed inBounds) within step

theorem not_strands_of_passed (inBounds : register.InBounds)
    (passed : register.operate operation = .ok none) : ¬ register.Strands operation := by
  cases register with
  | chars window =>
      cases operation with
      | chars step =>
          rw [operate_chars inBounds step] at passed
          cases passed
      | bytes step => exact id
  | bytes window =>
      cases operation with
      | chars step => exact id
      | bytes step =>
          rw [operate_bytes inBounds step] at passed
          cases passed

end Register

namespace Bank

def MarksWithin (bank : Bank) : Prop := ∀ register ∈ bank, register.MarkWithin

/-- Does the action trim the end of a window whose mark lies among the blanks there? -/
def Strands (bank : Bank) : Action → Prop
  | .operate index operation =>
      ∃ register, bank[index]? = some register ∧ register.Strands operation
  | _ => False

variable {bank next last : Bank} {history : List Action} {action : Action} {answer : Answer}
  {answers : List Answer}

theorem not_strands_of_passes (inBounds : bank.InBounds) (passes : bank.Passes action) :
    ¬ bank.Strands action := by
  cases action with
  | operate index operation =>
      rintro ⟨register, found, strands⟩
      exact Register.not_strands_of_passed (inBounds register (List.mem_of_getElem? found))
        (passes index operation rfl register found) strands
  | _ => exact id

/-- One action takes a mark out of its limit in one case only. -/
theorem MarksWithin.turns_iff (within : bank.MarksWithin) (inBounds : bank.InBounds)
    (turns : bank.Turns action answer next) : next.MarksWithin ↔ ¬ bank.Strands action := by
  cases turns with
  | look passes => exact iff_of_true within (not_strands_of_passes inBounds passes)
  | @make action made passes inBounds' origin =>
      refine iff_of_true ?_ (not_strands_of_passes inBounds passes)
      have kept : made.MarkWithin := by
        rcases origin with old | unmarked
        · exact within made old
        · exact Register.markWithin_of_unmarked unmarked
      exact List.forall_mem_append.mpr ⟨within, by simpa using kept⟩
  | @operate index operation register left answer found ran moves inBounds' covers =>
      have member := List.mem_of_getElem? found
      have inside := (List.getElem?_eq_some_iff.mp found).1
      have stranded : bank.Strands (.operate index operation) ↔ register.Strands operation := by
        simp only [Strands, found, Option.some.injEq, exists_eq_left']
      rw [stranded,
        ← Register.markWithin_operate (inBounds register member) (within register member) ran]
      constructor
      · intro all
        exact all left (List.mem_set inside left)
      · intro kept other member'
        rcases List.mem_or_eq_of_mem_set member' with old | rfl
        · exact within other old
        · exact kept

theorem run_concat (ran : bank.run history = .ok (answers, next))
    (acted : next.act action = .ok (answer, last)) :
    bank.run (history ++ [action]) = .ok (answers ++ [answer], last) := by
  induction history generalizing bank answers with
  | nil =>
      cases ran
      exact run_cons_eq_ok.mpr ⟨answer, last, [], acted, rfl, rfl⟩
  | cons first rest ih =>
      obtain ⟨answer', next', tail, acted', ran', rfl⟩ := run_cons_eq_ok.mp ran
      exact run_cons_eq_ok.mpr ⟨answer', next', tail ++ [answer], acted', ih ran', rfl⟩

/-- The mark of every window is within the limit after each step of a run exactly when no step trims
the end of a window whose mark lies among the blanks there. -/
theorem marksWithin_run_iff (history : List Action) :
    (∀ done, done <+: history →
      ∃ answers bank, run [] done = .ok (answers, bank) ∧ bank.MarksWithin) ↔
    ∀ done action, done ++ [action] <+: history →
      ∃ answers bank, run [] done = .ok (answers, bank) ∧ ¬ bank.Strands action := by
  constructor
  -- Marks are within their limits before the action and after it, so it does not strand one.
  · intro all done action early
    obtain ⟨answers, bank, ran, inBounds, -⟩ := exists_run inBounds_nil done
    obtain ⟨answer, next, acted, turns⟩ := ends_act inBounds action
    obtain ⟨_, _, ran', within⟩ := all done ((List.prefix_append done [action]).trans early)
    obtain ⟨_, _, ran'', within'⟩ := all (done ++ [action]) early
    cases ran.symm.trans ran'
    cases (run_concat ran acted).symm.trans ran''
    exact ⟨answers, bank, ran, (within.turns_iff inBounds turns).mp within'⟩
  · intro none done early
    induction done using List.reverseRecOn with
    | nil => exact ⟨[], [], rfl, fun register member => nomatch member⟩
    | append_singleton done action ih =>
        obtain ⟨answers, bank, ran, within⟩ := ih ((List.prefix_append done [action]).trans early)
        obtain ⟨_, _, ran', spared⟩ := none done action early
        cases ran.symm.trans ran'
        obtain ⟨_, _, ran'', inBounds, -⟩ := exists_run inBounds_nil done
        cases ran.symm.trans ran''
        obtain ⟨answer, next, acted, turns⟩ := ends_act inBounds action
        exact ⟨answers ++ [answer], next, run_concat ran acted,
          (within.turns_iff inBounds turns).mpr spared⟩

/-- A mark in the blanks at the end, and the position before them: trimming the end lowers the limit
to 2 and leaves the mark at 4. -/
theorem marksWithin_run_trimmed_end :
    (∃ answers, run [] [.newChars ['a', 'b', ' ', ' '], .operate 0 (.chars (.setPosition 4)),
        .operate 0 (.chars .mark), .operate 0 (.chars .rewind), .operate 0 (.chars .dropEndBlank)] =
      .ok (answers, [.chars ⟨['a', 'b', ' ', ' '], 0, 4, 0, 2, some 4⟩])) ∧
    ¬ MarksWithin [.chars ⟨['a', 'b', ' ', ' '], 0, 4, 0, 2, some 4⟩] := by
  refine ⟨⟨_, rfl⟩, fun within => ?_⟩
  have inside := within _ (List.mem_singleton_self _) 4 rfl
  exact absurd inside (by decide)

end Bank

end RowStore
