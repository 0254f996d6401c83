import Mathlib
import RowStore.Proofs.Outcome
import RowStore.Proofs.Window.Moves
import RowStore.Window.Bank

/-! Windows stay within their bounds, whatever is done to them.

Whether a window is new, a slice, a clone, or made of the content of another one, and in whatever
order operations are run on it and on all others, nothing outside of a backing is read, position,
limit and mark stay in the window, what the window covers does not change, and what is refused
changes nothing.
-/

namespace RowStore

namespace Window

variable {α : Type} {window : Window α}

theorem ofList_inBounds (elements : List α) : (ofList elements).InBounds where
  wellFormed := ofList_wellFormed elements
  mark_le _ set := by cases set

theorem InBounds.slice (inBounds : window.InBounds) : window.slice.InBounds := by
  obtain ⟨lower, upper, held⟩ := inBounds.wellFormed
  refine ⟨⟨Nat.zero_le _, Nat.le_refl _, ?_⟩, fun mark set => by cases set⟩
  simp only [Window.slice, remaining]
  omega

end Window

/-- Was something refused, or looked for and not found? -/
def Bank.Answer.failed : Bank.Answer → Bool
  | .chars reply => Window.Reply.failed reply
  | .bytes reply => Window.Reply.failed reply
  | .notMade _ | .absent => true
  | .made | .text _ | .compared .. => false

namespace Register

open Bank (Operation Answer)

def InBounds : Register → Prop
  | chars window => window.InBounds
  | bytes window => window.InBounds

def capacity : Register → Nat
  | chars window => window.capacity
  | bytes window => window.capacity

def mark : Register → Option Nat
  | chars window => window.mark
  | bytes window => window.mark

/-- The element at an index of the window, whatever position and limit are. -/
def at? : Register → Nat → Option (Char ⊕ UInt8)
  | chars window, index => (window.at? index).map .inl
  | bytes window, index => (window.at? index).map .inr

/-- Both windows cover the same elements. -/
def Covers (before after : Register) : Prop :=
  after.capacity = before.capacity ∧ ∀ index, after.at? index = before.at? index

/-- What an operation may make of a register that it answers with `answer`. -/
inductive Moves : Operation → Register → Answer → Register → Prop
  | chars {step : Window.Step Char} {before after : CharWindow}
      {reply : Except Error (Window.Reply Char)} (moves : Window.Moves step before reply after) :
      Moves (.chars step) (.chars before) (.chars reply) (.chars after)
  | bytes {step : Window.Step UInt8} {before after : ByteWindow}
      {reply : Except Error (Window.Reply UInt8)} (moves : Window.Moves step before reply after) :
      Moves (.bytes step) (.bytes before) (.bytes reply) (.bytes after)

theorem Moves.eq_of_failed {operation : Operation} {before after : Register} {answer : Answer}
    (moves : Moves operation before answer after) (failed : answer.failed = true) :
    after = before := by
  cases moves with
  | chars moves => exact congrArg Register.chars (moves.failed failed)
  | bytes moves => exact congrArg Register.bytes (moves.failed failed)

variable {register : Register}

theorem operate_chars {window : CharWindow} (inBounds : window.InBounds) (step : Window.Step Char) :
    (chars window).operate (.chars step) =
      .ok (some (.chars (window.apply step).1, chars (window.apply step).2)) := by
  rw [operate, Window.perform_eq inBounds.wellFormed]
  rfl

theorem operate_bytes {window : ByteWindow} (inBounds : window.InBounds) (step : Window.Step UInt8) :
    (bytes window).operate (.bytes step) =
      .ok (some (.bytes (window.apply step).1, bytes (window.apply step).2)) := by
  rw [operate, Window.perform_eq inBounds.wellFormed]
  rfl

theorem slice_chars {window : CharWindow} (wellFormed : window.WellFormed) :
    (chars window).slice = .ok (chars window.slice) := by
  rw [slice, Window.fetchSlice_eq wellFormed]
  rfl

theorem slice_bytes {window : ByteWindow} (wellFormed : window.WellFormed) :
    (bytes window).slice = .ok (bytes window.slice) := by
  rw [slice, Window.fetchSlice_eq wellFormed]
  rfl

theorem operate_cases (inBounds : register.InBounds) (operation : Operation) :
    register.operate operation = .ok none ∨
      ∃ answer next, register.operate operation = .ok (some (answer, next)) ∧
        Moves operation register answer next ∧ next.InBounds ∧ Covers register next := by
  cases register with
  | chars window =>
      cases operation with
      | chars step =>
          have wellFormed := Window.InBounds.wellFormed inBounds
          have moves := Window.moves_apply wellFormed step
          refine .inr ⟨_, _, operate_chars inBounds step, .chars moves,
            Window.InBounds.apply inBounds step, moves.capacity, fun index => ?_⟩
          exact congrArg (Option.map Sum.inl) (Window.at?_apply wellFormed step index)
      | bytes step => exact .inl rfl
  | bytes window =>
      cases operation with
      | chars step => exact .inl rfl
      | bytes step =>
          have wellFormed := Window.InBounds.wellFormed inBounds
          have moves := Window.moves_apply wellFormed step
          refine .inr ⟨_, _, operate_bytes inBounds step, .bytes moves,
            Window.InBounds.apply inBounds step, moves.capacity, fun index => ?_⟩
          exact congrArg (Option.map Sum.inr) (Window.at?_apply wellFormed step index)

theorem exists_slice (inBounds : register.InBounds) :
    ∃ made, register.slice = .ok made ∧ made.InBounds ∧ made.mark = none := by
  cases register with
  | chars window =>
      have inside := Window.InBounds.slice inBounds
      exact ⟨_, slice_chars (Window.InBounds.wellFormed inBounds), inside, rfl⟩
  | bytes window =>
      have inside := Window.InBounds.slice inBounds
      exact ⟨_, slice_bytes (Window.InBounds.wellFormed inBounds), inside, rfl⟩

theorem exists_recode (inBounds : register.InBounds) :
    ∃ outcome, register.recode = .ok outcome ∧
      ∀ made, outcome = .ok made → made.InBounds ∧ made.mark = none := by
  cases register with
  | chars window =>
      refine ⟨_, by rw [recode, Window.stretch_eq (Window.InBounds.wellFormed inBounds)]; rfl, ?_⟩
      intro made coded
      obtain ⟨encoded, -, rfl⟩ := Outcome.map_eq_ok_iff.mp coded
      exact ⟨Window.ofList_inBounds encoded, rfl⟩
  | bytes window =>
      refine ⟨_, by rw [recode, Window.stretch_eq (Window.InBounds.wellFormed inBounds)]; rfl, ?_⟩
      intro made coded
      obtain ⟨decoded, -, rfl⟩ := Outcome.map_eq_ok_iff.mp coded
      exact ⟨Window.ofList_inBounds decoded, rfl⟩

theorem exists_text (inBounds : register.InBounds) : ∃ answer, register.text = .ok answer := by
  cases register with
  | chars window =>
      exact ⟨_, by rw [text, Window.stretch_eq (Window.InBounds.wellFormed inBounds)]; rfl⟩
  | bytes window => exact ⟨none, rfl⟩

theorem exists_describe (inBounds : register.InBounds) :
    ∃ answer, register.describe = .ok answer := by
  cases register with
  | chars window =>
      exact ⟨_, by rw [describe, Window.stretch_eq (Window.InBounds.wellFormed inBounds)]; rfl⟩
  | bytes window =>
      exact ⟨_, by rw [describe, Window.stretch_eq (Window.InBounds.wellFormed inBounds)]; rfl⟩

theorem exists_compare {other : Register} (inBounds : register.InBounds)
    (inBounds' : other.InBounds) : ∃ answer, register.compare other = .ok answer := by
  cases register with
  | chars left =>
      cases other with
      | chars right =>
          exact ⟨_, by
            rw [compare, Window.stretch_eq (Window.InBounds.wellFormed inBounds),
              Window.stretch_eq (Window.InBounds.wellFormed inBounds')]
            rfl⟩
      | bytes right => exact ⟨none, rfl⟩
  | bytes left =>
      cases other with
      | chars right => exact ⟨none, rfl⟩
      | bytes right =>
          exact ⟨_, by
            rw [compare, Window.stretch_eq (Window.InBounds.wellFormed inBounds),
              Window.stretch_eq (Window.InBounds.wellFormed inBounds')]
            rfl⟩

end Register

namespace Bank

def InBounds (bank : Bank) : Prop := ∀ register ∈ bank, register.InBounds

/-- Every window is still there and covers the same elements. -/
def Keeps (before after : Bank) : Prop :=
  ∀ (index : Nat) (register : Register), before[index]? = some register →
    ∃ left, after[index]? = some left ∧ register.Covers left

variable {bank : Bank} {register : Register} {index : Nat}

theorem Keeps.refl (bank : Bank) : bank.Keeps bank := fun _ register found =>
  ⟨register, found, rfl, fun _ => rfl⟩

theorem Keeps.trans {middle last : Bank} (first : bank.Keeps middle) (second : middle.Keeps last) :
    bank.Keeps last := by
  intro index register found
  obtain ⟨left, found', capacity, elements⟩ := first index register found
  obtain ⟨left', found'', capacity', elements'⟩ := second index left found'
  exact ⟨left', found'', capacity'.trans capacity, fun at' => (elements' at').trans (elements at')⟩

/-- The action runs no operation: it is of another sort, or addresses no window of its kind. -/
def Passes (bank : Bank) (action : Action) : Prop :=
  ∀ index operation, action = .operate index operation →
    ∀ register, bank[index]? = some register → register.operate operation = .ok none

/-- What an action may do to a bank: nothing, add one window, or change the one it addresses. -/
inductive Turns (bank : Bank) : Action → Answer → Bank → Prop
  | look {action : Action} {answer : Answer} (passes : bank.Passes action) :
      Turns bank action answer bank
  | make {action : Action} {made : Register} (passes : bank.Passes action)
      (inBounds : made.InBounds) (origin : made ∈ bank ∨ made.mark = none) :
      Turns bank action .made (bank ++ [made])
  | operate {index : Nat} {operation : Operation} {register next : Register} {answer : Answer}
      (found : bank[index]? = some register)
      (ran : register.operate operation = .ok (some (answer, next)))
      (moves : register.Moves operation answer next) (inBounds : next.InBounds)
      (covers : register.Covers next) :
      Turns bank (.operate index operation) answer (bank.set index next)

/-- The action ends without a trap, in what it may do. -/
def Ends (bank : Bank) (action : Action) (outcome : Except Trap (Answer × Bank)) : Prop :=
  ∃ answer next, outcome = .ok (answer, next) ∧ bank.Turns action answer next

theorem ends_look {action : Action} {answer : Answer} (passes : bank.Passes action) :
    bank.Ends action (.ok (answer, bank)) :=
  ⟨answer, bank, rfl, .look passes⟩

theorem ends_on {action : Action} {use : Register → Except Trap (Answer × Bank)}
    (passes : bank[index]? = none → bank.Passes action)
    (ends : ∀ register, bank[index]? = some register → bank.Ends action (use register)) :
    bank.Ends action (bank.on index use) := by
  rw [on]
  cases found : bank[index]? with
  | none => exact ends_look (passes found)
  | some register => exact ends register found

theorem ends_add {action : Action} {outcome : Except Error Register} (passes : bank.Passes action)
    (sound : ∀ made, outcome = .ok made → made.InBounds ∧ (made ∈ bank ∨ made.mark = none)) :
    bank.Ends action (.ok (bank.add outcome)) := by
  cases outcome with
  | error reason => exact ends_look passes
  | ok made =>
      obtain ⟨inBounds, origin⟩ := sound made rfl
      exact ⟨_, _, rfl, .make passes inBounds origin⟩

theorem ends_operate (sound : bank.InBounds) (index : Nat) (operation : Operation) :
    bank.Ends (.operate index operation) (bank.act (.operate index operation)) := by
  refine ends_on (fun missing => ?_) fun register found => ?_
  · rintro _ _ ⟨⟩ register found
    rw [missing] at found
    cases found
  have inBounds := sound register (List.mem_of_getElem? found)
  rcases register.operate_cases inBounds operation with
    other | ⟨answer, next, ran, moves, inBounds, covers⟩
  · rw [other]
    refine ends_look ?_
    rintro _ _ ⟨⟩ register' found'
    rwa [← Option.some.inj (found.symm.trans found')]
  · rw [ran]
    exact ⟨answer, bank.set index next, rfl, .operate found ran moves inBounds covers⟩

/-- In a bank whose windows are in bounds, every action ends without a trap. -/
theorem ends_act (sound : bank.InBounds) (action : Action) : bank.Ends action (bank.act action) := by
  have held {index : Nat} {register : Register} (found : bank[index]? = some register) :
      register ∈ bank ∧ register.InBounds :=
    ⟨List.mem_of_getElem? found, sound register (List.mem_of_getElem? found)⟩
  cases action with
  | newChars elements =>
      refine ends_add nofun fun made same => ?_
      cases same
      exact ⟨Window.ofList_inBounds elements, .inr rfl⟩
  | newBytes elements =>
      refine ends_add nofun fun made same => ?_
      cases same
      exact ⟨Window.ofList_inBounds elements, .inr rfl⟩
  | operate index operation => exact ends_operate sound index operation
  | slice index =>
      refine ends_on nofun fun register found => ?_
      obtain ⟨slice, sliced, inBounds, unmarked⟩ := register.exists_slice (held found).2
      rw [sliced]
      refine ends_add nofun fun made same => ?_
      cases same
      exact ⟨inBounds, .inr unmarked⟩
  | clone index =>
      refine ends_on nofun fun register found => ends_add nofun fun made same => ?_
      cases same
      exact ⟨(held found).2, .inl (held found).1⟩
  | recode index =>
      refine ends_on nofun fun register found => ?_
      obtain ⟨outcome, coded, sound'⟩ := register.exists_recode (held found).2
      rw [coded]
      exact ends_add nofun fun made same => (sound' made same).imp_right .inr
  | text index =>
      refine ends_on nofun fun register found => ?_
      obtain ⟨answer, read⟩ := register.exists_text (held found).2
      rw [read]
      exact ends_look nofun
  | describe index =>
      refine ends_on nofun fun register found => ?_
      obtain ⟨answer, read⟩ := register.exists_describe (held found).2
      rw [read]
      exact ends_look nofun
  | compare index other =>
      refine ends_on nofun fun register found => ends_on nofun fun register' found' => ?_
      obtain ⟨answer, read⟩ := Register.exists_compare (held found).2 (held found').2
      rw [read]
      exact ends_look nofun

namespace Turns

variable {action : Action} {answer : Answer} {next : Bank}

theorem inBounds (turns : bank.Turns action answer next) (sound : bank.InBounds) :
    next.InBounds := by
  cases turns with
  | look passes => exact sound
  | make passes inBounds origin => exact List.forall_mem_append.mpr ⟨sound, by simpa using inBounds⟩
  | operate found ran moves inBounds covers =>
      intro other member
      rcases List.mem_or_eq_of_mem_set member with old | rfl
      · exact sound other old
      · exact inBounds

theorem keeps (turns : bank.Turns action answer next) : bank.Keeps next := by
  cases turns with
  | look passes => exact .refl bank
  | make passes inBounds origin =>
      intro index register found
      have inside := (List.getElem?_eq_some_iff.mp found).1
      exact ⟨register, by rwa [List.getElem?_append_left inside], rfl, fun _ => rfl⟩
  | @operate place operation register' after answer found ran moves inBounds covers =>
      intro index register found'
      by_cases same : place = index
      · subst same
        obtain rfl := Option.some.inj (found.symm.trans found')
        have inside := (List.getElem?_eq_some_iff.mp found).1
        exact ⟨after, by rw [List.getElem?_set_self inside], covers⟩
      · exact ⟨register, by rw [List.getElem?_set_ne same, found'], rfl, fun _ => rfl⟩

theorem eq_of_failed (turns : bank.Turns action answer next) (failed : answer.failed = true) :
    next = bank := by
  cases turns with
  | look passes => rfl
  | make passes inBounds origin => cases failed
  | @operate index operation register next' answer found ran moves inBounds covers =>
      obtain ⟨inside, rfl⟩ := List.getElem?_eq_some_iff.mp found
      have same : next' = bank[index] := moves.eq_of_failed failed
      rw [same, List.set_getElem_self]

end Turns

theorem run_cons_eq_ok {action : Action} {rest : List Action} {answers : List Answer} {last : Bank} :
    bank.run (action :: rest) = .ok (answers, last) ↔ ∃ answer next tail,
      bank.act action = .ok (answer, next) ∧ next.run rest = .ok (tail, last) ∧
        answers = answer :: tail := by
  rw [run, Outcome.bind_eq_ok_iff]
  constructor
  · rintro ⟨⟨answer, next⟩, acted, continued⟩
    obtain ⟨⟨tail, last'⟩, ran, same⟩ := Outcome.bind_eq_ok_iff.mp continued
    cases same
    exact ⟨answer, next, tail, acted, ran, rfl⟩
  · rintro ⟨answer, next, tail, acted, ran, rfl⟩
    exact ⟨(answer, next), acted, Outcome.bind_eq_ok_iff.mpr ⟨(tail, last), ran, rfl⟩⟩

theorem exists_run (inBounds : bank.InBounds) (actions : List Action) :
    ∃ answers last, bank.run actions = .ok (answers, last) ∧ last.InBounds ∧ bank.Keeps last := by
  induction actions generalizing bank with
  | nil => exact ⟨[], bank, rfl, inBounds, .refl bank⟩
  | cons action rest ih =>
      obtain ⟨answer, next, acted, turns⟩ := ends_act inBounds action
      obtain ⟨answers, last, ran, inBounds', keeps⟩ := ih (turns.inBounds inBounds)
      exact ⟨answer :: answers, last, run_cons_eq_ok.mpr ⟨answer, next, answers, acted, ran, rfl⟩,
        inBounds', turns.keeps.trans keeps⟩

theorem inBounds_nil : InBounds [] := by
  intro register member
  cases member

/-- Whatever has been done, every window is in bounds, goes on covering the same elements, and is
left as it was by an action that fails; and no action traps. -/
theorem run_inBounds (history actions : List Action) :
    ∃ answers bank, run [] history = .ok (answers, bank) ∧ bank.InBounds ∧
      (∃ further last, bank.run actions = .ok (further, last) ∧ bank.Keeps last) ∧
      ∀ action, ∃ answer next, bank.act action = .ok (answer, next) ∧
        (answer.failed = true → next = bank) := by
  obtain ⟨answers, bank, ran, inBounds, -⟩ := exists_run inBounds_nil history
  obtain ⟨further, last, ran', -, keeps⟩ := exists_run inBounds actions
  refine ⟨answers, bank, ran, inBounds, ⟨further, last, ran', keeps⟩, fun action => ?_⟩
  obtain ⟨answer, next, acted, turns⟩ := ends_act inBounds action
  exact ⟨answer, next, acted, turns.eq_of_failed⟩

end Bank

end RowStore
