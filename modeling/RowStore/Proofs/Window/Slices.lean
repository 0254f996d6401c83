import Mathlib
import RowStore.Proofs.Window.Bounds

/-! A slice is as good as a window of its own.

What a window does depends on its cursor and on the elements it covers, and not on where in a
backing these lie. A window over its own copy of what it covers therefore answers every operation in
the same way; and since no operation writes to a backing, what is done to a slice never shows in the
window it was taken of.
-/

namespace RowStore

namespace Window

variable {α : Type} {window : Window α}

/-- The same cursor over a backing that holds only what the window covers. -/
def detached (window : Window α) : Window α :=
  { window with backing := (window.backing.drop window.base).take window.capacity, base := 0 }

@[simp] theorem position_detached (window : Window α) :
    window.detached.position = window.position := rfl

@[simp] theorem limit_detached (window : Window α) : window.detached.limit = window.limit := rfl

@[simp] theorem capacity_detached (window : Window α) :
    window.detached.capacity = window.capacity := rfl

@[simp] theorem mark_detached (window : Window α) : window.detached.mark = window.mark := rfl

theorem detached_ofList (elements : List α) : (ofList elements).detached = ofList elements := by
  simp [detached, ofList]

theorem detached_wellFormed (wellFormed : window.WellFormed) : window.detached.WellFormed := by
  obtain ⟨lower, upper, held⟩ := wellFormed
  refine ⟨lower, upper, ?_⟩
  simp only [detached, List.length_take, List.length_drop]
  omega

theorem InBounds.detached (inBounds : window.InBounds) : window.detached.InBounds :=
  ⟨detached_wellFormed inBounds.wellFormed, inBounds.mark_le⟩

theorem content_detached (wellFormed : window.WellFormed) :
    window.detached.content = window.content := by
  obtain ⟨lower, upper, -⟩ := wellFormed
  simp only [content, detached, Nat.zero_add, List.drop_take, List.drop_drop, List.take_take]
  congr 1
  omega

theorem getElem?_detached {index : Nat} (inside : index < window.capacity) :
    window.detached.backing[window.detached.base + index]? =
      window.backing[window.base + index]? := by
  simp only [detached, Nat.zero_add]
  rw [List.getElem?_take_of_lt inside, List.getElem?_drop]

theorem detached_slice (wellFormed : window.WellFormed) :
    window.slice.detached = ofList window.content := by
  have size := length_content wellFormed
  rw [ofList, size]
  rfl

theorem slice_detached (wellFormed : window.WellFormed) :
    window.detached.slice.detached = window.slice.detached := by
  rw [detached_slice wellFormed, detached_slice (detached_wellFormed wellFormed),
    content_detached wellFormed]

theorem at?_detached (window : Window α) (index : Nat) :
    window.detached.at? index = window.at? index := by
  rw [at?, at?, capacity_detached]
  split_ifs with covered
  · exact getElem?_detached covered
  · rfl

theorem advance?_detached (window : Window α) (found : Option Nat) :
    answering (window.detached.advance? found) =
      ((answering (window.advance? found)).1, (answering (window.advance? found)).2.detached) := by
  cases found <;> rfl

theorem shrinkWhile_detached (wellFormed : window.WellFormed) (kind : α → Bool) :
    window.detached.shrinkWhile kind = (window.shrinkWhile kind).detached := by
  rw [shrinkWhile, content_detached wellFormed]
  rfl

theorem detached_detached (window : Window α) : window.detached.detached = window.detached := by
  simp [detached]

theorem stretch_detached (wellFormed : window.WellFormed) :
    window.detached.stretch = window.stretch := by
  have wellFormed' : window.detached.WellFormed := detached_wellFormed wellFormed
  rw [stretch_eq wellFormed, stretch_eq wellFormed', content_detached wellFormed]

theorem describe_detached (wellFormed : window.WellFormed) (render : α → String) :
    window.detached.describe render = window.describe render := by
  unfold describe
  rw [content_detached wellFormed]
  rfl

/-- What can be seen of a window. -/
structure View (α : Type) where
  position : Nat
  limit : Nat
  mark : Option Nat
  capacity : Nat
  content : List α
deriving Repr, DecidableEq

def view (window : Window α) : View α :=
  ⟨window.position, window.limit, window.mark, window.capacity, window.content⟩

theorem view_detached (wellFormed : window.WellFormed) : window.detached.view = window.view := by
  rw [view, view, content_detached wellFormed, position_detached, limit_detached, mark_detached,
    capacity_detached]

variable [DecidableEq α]

theorem same_detached {other : Window α} (wellFormed : window.WellFormed)
    (wellFormed' : other.WellFormed) :
    window.detached.same other.detached = window.same other := by
  rw [Bool.eq_iff_iff]
  simp only [same, Bool.and_eq_true, decide_eq_true_eq]
  rw [content_detached wellFormed, content_detached wellFormed']
  rfl

variable [Blank α]

theorem strip_detached (wellFormed : window.WellFormed) (opening closing : α) :
    answering (window.detached.strip opening closing) =
      ((answering (window.strip opening closing)).1,
        (answering (window.strip opening closing)).2.detached) := by
  have trimmed : window.detached.trim = window.trim.detached := shrinkWhile_detached wellFormed _
  have wellFormed' : window.trim.WellFormed := shrinkWhile_wellFormed wellFormed _
  have inner : window.detached.trim.content = window.trim.content := by
    rw [trimmed, content_detached wellFormed']
  rw [strip, strip, inner, trimmed]
  split_ifs <;> rfl

/-- An operation does the same to the detached window, and answers the same. -/
theorem apply_detached (wellFormed : window.WellFormed) (step : Step α) :
    window.detached.apply step = ((window.apply step).1, (window.apply step).2.detached) := by
  have same := content_detached wellFormed
  have current (more : window.hasRemaining = true) :
      window.detached.backing[window.detached.base + window.detached.position]? =
        window.backing[window.base + window.position]? := by
    have inside := of_decide_eq_true more
    exact getElem?_detached (inside.trans_le wellFormed.2.1)
  have more : window.detached.hasRemaining = window.hasRemaining := rfl
  cases step with
  | get =>
      rw [apply, apply, get, get, more]
      split_ifs with here
      · rw [current here]
        cases window.backing[window.base + window.position]? <;> rfl
      · rfl
  | peek =>
      rw [apply, apply, peek?, peek?, more]
      split_ifs with here
      · rw [current here]
      · rfl
  | «at» index => rw [apply, apply, at?_detached]
  | setPosition position =>
      rw [apply, apply, setPosition, setPosition, limit_detached]
      split_ifs <;> rfl
  | setLimit limit =>
      rw [apply, apply, setLimit, setLimit, capacity_detached]
      split_ifs <;> rfl
  | decrement =>
      rw [apply, apply, decrement, decrement, position_detached]
      split_ifs <;> rfl
  | increment =>
      rw [apply, apply, increment, increment, more]
      split_ifs <;> rfl
  | reset =>
      rw [apply, apply, reset, reset, mark_detached]
      split <;> rfl
  | skipBlank => rw [apply, apply, skipBlank, skipWhile, same]; rfl
  | dropEndBlank => rw [apply, apply, dropEndBlank, dropEndWhile, same]; rfl
  | trim => rw [apply, apply, trim, shrinkWhile_detached wellFormed]; rfl
  | shrinkWhile kind => rw [apply, apply, shrinkWhile_detached wellFormed]
  | seek target => rw [apply, apply, seek, same, advance?_detached]; rfl
  | seekLive target escape => rw [apply, apply, seekLive, same, advance?_detached]; rfl
  | seekSequence sequence =>
      rw [apply, apply, seekSequence, seekSequence, same]
      split_ifs
      · rfl
      · exact advance?_detached ..
  | strip opening closing => exact strip_detached wellFormed opening closing
  | toList => rw [apply, apply, same]
  | _ => rfl

end Window

namespace Register

open Bank (Operation Answer)

def detached : Register → Register
  | chars window => chars window.detached
  | bytes window => bytes window.detached

/-- What can be seen of a register. -/
def view : Register → Window.View Char ⊕ Window.View UInt8
  | chars window => .inl window.view
  | bytes window => .inr window.view

variable {register : Register}

theorem InBounds.detached (inBounds : register.InBounds) : register.detached.InBounds := by
  cases register with
  | chars window => exact Window.InBounds.detached inBounds
  | bytes window => exact Window.InBounds.detached inBounds

theorem detached_detached (register : Register) :
    register.detached.detached = register.detached := by
  cases register with
  | chars window => exact congrArg chars window.detached_detached
  | bytes window => exact congrArg bytes window.detached_detached

theorem view_detached (inBounds : register.InBounds) : register.detached.view = register.view := by
  cases register with
  | chars window =>
      exact congrArg Sum.inl (Window.view_detached (Window.InBounds.wellFormed inBounds))
  | bytes window =>
      exact congrArg Sum.inr (Window.view_detached (Window.InBounds.wellFormed inBounds))

theorem operate_detached (inBounds : register.InBounds) (operation : Operation) :
    register.detached.operate operation =
      (register.operate operation).map (Option.map (Prod.map id detached)) := by
  cases register with
  | chars window =>
      cases operation with
      | bytes step => rfl
      | chars step =>
          rw [operate_chars inBounds, detached, operate_chars (Window.InBounds.detached inBounds),
            Window.apply_detached (Window.InBounds.wellFormed inBounds)]
          rfl
  | bytes window =>
      cases operation with
      | chars step => rfl
      | bytes step =>
          rw [operate_bytes inBounds, detached, operate_bytes (Window.InBounds.detached inBounds),
            Window.apply_detached (Window.InBounds.wellFormed inBounds)]
          rfl

theorem slice_detached (inBounds : register.InBounds) :
    register.detached.slice.map detached = register.slice.map detached := by
  cases register with
  | chars window =>
      have wellFormed := Window.InBounds.wellFormed inBounds
      rw [detached, slice_chars wellFormed, slice_chars (Window.detached_wellFormed wellFormed)]
      exact congrArg (fun made => Except.ok (chars made)) (Window.slice_detached wellFormed)
  | bytes window =>
      have wellFormed := Window.InBounds.wellFormed inBounds
      rw [detached, slice_bytes wellFormed, slice_bytes (Window.detached_wellFormed wellFormed)]
      exact congrArg (fun made => Except.ok (bytes made)) (Window.slice_detached wellFormed)

theorem recode_detached (inBounds : register.InBounds) :
    register.detached.recode = register.recode := by
  cases register with
  | chars window =>
      rw [recode, detached, recode, Window.stretch_detached (Window.InBounds.wellFormed inBounds)]
  | bytes window =>
      rw [recode, detached, recode, Window.stretch_detached (Window.InBounds.wellFormed inBounds)]

theorem text_detached (inBounds : register.InBounds) : register.detached.text = register.text := by
  cases register with
  | chars window =>
      rw [text, detached, text, Window.stretch_detached (Window.InBounds.wellFormed inBounds)]
  | bytes window => rfl

theorem describe_detached (inBounds : register.InBounds) :
    register.detached.describe = register.describe := by
  cases register with
  | chars window =>
      have wellFormed := Window.InBounds.wellFormed inBounds
      rw [describe, detached, describe, Window.stretch_detached wellFormed,
        Window.describe_detached wellFormed]
  | bytes window =>
      have wellFormed := Window.InBounds.wellFormed inBounds
      rw [describe, detached, describe, Window.stretch_detached wellFormed,
        Window.describe_detached wellFormed]

theorem compare_detached {other : Register} (inBounds : register.InBounds)
    (inBounds' : other.InBounds) :
    register.detached.compare other.detached = register.compare other := by
  cases register with
  | chars left =>
      cases other with
      | bytes right => rfl
      | chars right =>
          have wellFormed := Window.InBounds.wellFormed inBounds
          have wellFormed' := Window.InBounds.wellFormed inBounds'
          rw [compare, detached, detached, compare, Window.stretch_detached wellFormed,
            Window.stretch_detached wellFormed', Window.same_detached wellFormed wellFormed']
  | bytes left =>
      cases other with
      | chars right => rfl
      | bytes right =>
          have wellFormed := Window.InBounds.wellFormed inBounds
          have wellFormed' := Window.InBounds.wellFormed inBounds'
          rw [compare, detached, detached, compare, Window.stretch_detached wellFormed,
            Window.stretch_detached wellFormed', Window.same_detached wellFormed wellFormed']

end Register

namespace Bank

def detached (bank : Bank) : Bank := bank.map Register.detached

variable {bank left right : Bank} {register : Register} {index : Nat} {action : Action}

/-- What an action leads to, with every window detached. -/
def settled (outcome : Except Trap (Answer × Bank)) : Except Trap (Answer × Bank) :=
  outcome.map (Prod.map id detached)

theorem detached_detached (bank : Bank) : bank.detached.detached = bank.detached := by
  simp [detached, Register.detached_detached]

theorem detached_append (bank : Bank) (made : Register) :
    detached (bank ++ [made]) = bank.detached ++ [made.detached] := List.map_append

theorem detached_set (bank : Bank) (index : Nat) (next : Register) :
    detached (bank.set index next) = bank.detached.set index next.detached := List.map_set

theorem InBounds.detached (inBounds : bank.InBounds) : bank.detached.InBounds := by
  intro register member
  obtain ⟨original, member', rfl⟩ := List.mem_map.mp member
  exact Register.InBounds.detached (inBounds original member')

theorem settled_look (answer : Answer) :
    settled (.ok (answer, bank.detached)) = settled (.ok (answer, bank)) :=
  congrArg (fun last => Except.ok (answer, last)) bank.detached_detached

theorem settled_on {use use' : Register → Except Trap (Answer × Bank)}
    (same : ∀ register, bank[index]? = some register →
      settled (use' register.detached) = settled (use register)) :
    settled (bank.detached.on index use') = settled (bank.on index use) := by
  rw [on, on, detached, List.getElem?_map]
  cases found : bank[index]? with
  | none => exact settled_look .absent
  | some register => exact same register found

theorem settled_add {outcome outcome' : Except Error Register}
    (same : outcome'.map Register.detached = outcome.map Register.detached) :
    settled (.ok (bank.detached.add outcome')) = settled (.ok (bank.add outcome)) := by
  cases outcome with
  | error reason =>
      cases outcome' with
      | error reason' =>
          cases same
          exact settled_look (.notMade reason)
      | ok made' => cases same
  | ok made =>
      cases outcome' with
      | error reason' => cases same
      | ok made' =>
          have same' : made'.detached = made.detached := Except.ok.inj same
          have grown : detached (bank.detached ++ [made']) = detached (bank ++ [made]) := by
            rw [detached_append, detached_append, detached_detached, same']
          exact congrArg (fun last => Except.ok (Answer.made, last)) grown

theorem settled_act (inBounds : bank.InBounds) (action : Action) :
    settled (bank.detached.act action) = settled (bank.act action) := by
  have held {index : Nat} {register : Register} (found : bank[index]? = some register) :
      register.InBounds := inBounds register (List.mem_of_getElem? found)
  cases action with
  | newChars elements => exact settled_add rfl
  | newBytes elements => exact settled_add rfl
  | operate index operation =>
      refine settled_on fun register found => ?_
      rw [Register.operate_detached (held found)]
      cases register.operate operation with
      | error trap => rfl
      | ok outcome =>
          cases outcome with
          | none => exact settled_look .absent
          | some reached =>
              obtain ⟨answer, next⟩ := reached
              have placed : detached (bank.detached.set index next.detached) =
                  detached (bank.set index next) := by
                rw [detached_set, detached_set, detached_detached, Register.detached_detached]
              exact congrArg (fun last => Except.ok (answer, last)) placed
  | slice index =>
      refine settled_on fun register found => ?_
      have same := register.slice_detached (held found)
      obtain ⟨made, sliced, -, -⟩ := register.exists_slice (held found)
      obtain ⟨made', sliced', -, -⟩ := register.detached.exists_slice (held found).detached
      rw [sliced, sliced'] at same
      rw [sliced, sliced']
      exact settled_add (congrArg Except.ok (Except.ok.inj same))
  | clone index =>
      refine settled_on fun register found => settled_add ?_
      exact congrArg Except.ok register.detached_detached
  | recode index =>
      refine settled_on fun register found => ?_
      rw [Register.recode_detached (held found)]
      cases register.recode with
      | error trap => rfl
      | ok outcome => exact settled_add rfl
  | text index =>
      refine settled_on fun register found => ?_
      rw [Register.text_detached (held found)]
      cases register.text with
      | error trap => rfl
      | ok answer => exact settled_look _
  | describe index =>
      refine settled_on fun register found => ?_
      rw [Register.describe_detached (held found)]
      cases register.describe with
      | error trap => rfl
      | ok answer => exact settled_look _
  | compare index other =>
      refine settled_on fun register found => settled_on fun register' found' => ?_
      rw [Register.compare_detached (held found) (held found')]
      cases register.compare register' with
      | error trap => rfl
      | ok answer => exact settled_look _

/-- Banks that are the same once detached answer every run in the same way and stay so. -/
theorem run_alike (inBounds : left.InBounds) (inBounds' : right.InBounds)
    (alike : left.detached = right.detached) (actions : List Action) :
    ∃ answers last last', left.run actions = .ok (answers, last) ∧
      right.run actions = .ok (answers, last') ∧ last.InBounds ∧ last'.InBounds ∧
      last.detached = last'.detached := by
  induction actions generalizing left right with
  | nil => exact ⟨[], left, right, rfl, rfl, inBounds, inBounds', alike⟩
  | cons action rest ih =>
      obtain ⟨answer, next, acted, turns⟩ := ends_act inBounds action
      obtain ⟨answer', next', acted', turns'⟩ := ends_act inBounds' action
      have same : settled (.ok (answer, next)) = settled (.ok (answer', next')) := by
        rw [← acted, ← acted', ← settled_act inBounds, ← settled_act inBounds', alike]
      obtain ⟨rfl, alike'⟩ := Prod.mk.inj (Except.ok.inj same)
      obtain ⟨answers, last, last', ran, ran', kept, kept', alike''⟩ :=
        ih (turns.inBounds inBounds) (turns'.inBounds inBounds') alike'
      exact ⟨answer :: answers, last, last',
        run_cons_eq_ok.mpr ⟨answer, next, answers, acted, ran, rfl⟩,
        run_cons_eq_ok.mpr ⟨answer, next', answers, acted', ran', rfl⟩, kept, kept', alike''⟩

section Apart

/-- The same action on the windows that lie `offset` numbers further on. -/
def Action.shift (offset : Nat) : Action → Action
  | .newChars elements => .newChars elements
  | .newBytes elements => .newBytes elements
  | .operate index operation => .operate (offset + index) operation
  | .slice index => .slice (offset + index)
  | .clone index => .clone (offset + index)
  | .recode index => .recode (offset + index)
  | .text index => .text (offset + index)
  | .describe index => .describe (offset + index)
  | .compare index other => .compare (offset + index) (offset + other)

variable {front own : Bank}

/-- An outcome with more windows in front. -/
def behind (front : Bank) (outcome : Except Trap (Answer × Bank)) : Except Trap (Answer × Bank) :=
  outcome.map (Prod.map id (front ++ ·))

theorem on_behind {use use' : Register → Except Trap (Answer × Bank)}
    (same : ∀ register, use' register = behind front (use register)) :
    on (front ++ own) (front.length + index) use' = behind front (own.on index use) := by
  rw [on, on, List.getElem?_append_right (Nat.le_add_right ..), Nat.add_sub_cancel_left]
  cases own[index]? with
  | none => rfl
  | some register => exact same register

theorem add_behind (outcome : Except Error Register) :
    Except.ok (add (front ++ own) outcome) = behind front (.ok (own.add outcome)) := by
  cases outcome with
  | error reason => rfl
  | ok made => exact congrArg (fun last => Except.ok (Answer.made, last)) (List.append_assoc ..)

/-- What is done to some windows does not touch those in front of them. -/
theorem act_behind (front own : Bank) (action : Action) :
    act (front ++ own) (action.shift front.length) = behind front (own.act action) := by
  cases action with
  | newChars elements => exact add_behind _
  | newBytes elements => exact add_behind _
  | operate index operation =>
      refine on_behind fun register => ?_
      cases register.operate operation with
      | error trap => rfl
      | ok outcome =>
          cases outcome with
          | none => rfl
          -- The window is put back where it was found, past those in front.
          | some reached =>
              refine congrArg (fun last => Except.ok (reached.1, last)) ?_
              rw [List.set_append_right _ _ (Nat.le_add_right ..), Nat.add_sub_cancel_left]
  | slice index =>
      refine on_behind fun register => ?_
      cases register.slice with
      | error trap => rfl
      | ok made => exact add_behind _
  | clone index => exact on_behind fun register => add_behind _
  | recode index =>
      refine on_behind fun register => ?_
      cases register.recode with
      | error trap => rfl
      | ok outcome => exact add_behind _
  | text index =>
      refine on_behind fun register => ?_
      cases register.text <;> rfl
  | describe index =>
      refine on_behind fun register => ?_
      cases register.describe <;> rfl
  | compare index other =>
      refine on_behind fun register => on_behind fun register' => ?_
      cases register.compare register' <;> rfl

theorem run_behind {actions : List Action} {answers : List Answer} {last : Bank}
    (ran : own.run actions = .ok (answers, last)) :
    run (front ++ own) (actions.map (.shift front.length)) = .ok (answers, front ++ last) := by
  induction actions generalizing own answers with
  | nil =>
      cases ran
      rfl
  | cons action rest ih =>
      obtain ⟨answer, next, tail, acted, ran', rfl⟩ := run_cons_eq_ok.mp ran
      refine run_cons_eq_ok.mpr ⟨answer, front ++ next, tail, ?_, ih ran', rfl⟩
      rw [act_behind, acted]
      rfl

end Apart

end Bank

/-- A new window over a copy of the content. -/
def Register.copy : Register → Bank.Action
  | chars window => .newChars window.content
  | bytes window => .newBytes window.content

namespace Bank

variable {bank : Bank} {register : Register} {index : Nat}

theorem map_view_detached (inBounds : bank.InBounds) :
    bank.detached.map Register.view = bank.map Register.view := by
  rw [detached, List.map_map]
  exact List.map_congr_left fun register member => register.view_detached (inBounds register member)

theorem act_slice (inBounds : bank.InBounds) (found : bank[index]? = some register) :
    ∃ slice fresh, bank.act (.slice index) = .ok (.made, bank ++ [slice]) ∧
      act [] register.copy = .ok (.made, [fresh]) ∧ slice.InBounds ∧ fresh.InBounds ∧
      slice.detached = fresh.detached := by
  have inBounds' := inBounds register (List.mem_of_getElem? found)
  cases register with
  | chars window =>
      have wellFormed := Window.InBounds.wellFormed inBounds'
      refine ⟨.chars window.slice, .chars (Window.ofList window.content), ?_, rfl,
        Window.InBounds.slice inBounds', Window.ofList_inBounds _, ?_⟩
      · simp only [act, on, found, Register.slice_chars wellFormed]
        rfl
      · rw [Register.detached, Register.detached, Window.detached_slice wellFormed,
          Window.detached_ofList]
  | bytes window =>
      have wellFormed := Window.InBounds.wellFormed inBounds'
      refine ⟨.bytes window.slice, .bytes (Window.ofList window.content), ?_, rfl,
        Window.InBounds.slice inBounds', Window.ofList_inBounds _, ?_⟩
      · simp only [act, on, found, Register.slice_bytes wellFormed]
        rfl
      · rw [Register.detached, Register.detached, Window.detached_slice wellFormed,
          Window.detached_ofList]

/-- A slice answers every run as a new window over a copy of the content does, it and all windows
that are made of it look the same after it, and no window that was there before has changed. -/
theorem run_slice {history : List Action} {done : List Answer}
    (reached : run [] history = .ok (done, bank)) (found : bank[index]? = some register)
    (actions : List Action) :
    ∃ answers sliced fresh,
      bank.run (.slice index :: actions.map (.shift bank.length)) =
        .ok (.made :: answers, bank ++ sliced) ∧
      run [] (register.copy :: actions) = .ok (.made :: answers, fresh) ∧
      sliced.map Register.view = fresh.map Register.view := by
  obtain ⟨_, _, ran, inBounds, -⟩ := exists_run inBounds_nil history
  cases reached.symm.trans ran
  -- The slice alone in a bank answers as the new window does; then the other windows are put in front.
  obtain ⟨slice, new, sliced, copied, sliceBounds, newBounds, same⟩ := act_slice inBounds found
  have single {register : Register} (inBounds : register.InBounds) : InBounds [register] :=
    List.forall_mem_singleton.mpr inBounds
  have alike : detached [slice] = detached [new] := congrArg (fun register => [register]) same
  obtain ⟨answers, last, fresh, ran, ran', lastBounds, freshBounds, alike'⟩ :=
    run_alike (single sliceBounds) (single newBounds) alike actions
  refine ⟨answers, last, fresh, ?_, ?_, ?_⟩
  · exact run_cons_eq_ok.mpr ⟨.made, bank ++ [slice], answers, sliced, run_behind ran, rfl⟩
  · exact run_cons_eq_ok.mpr ⟨.made, [new], answers, copied, ran', rfl⟩
  · rw [← map_view_detached lastBounds, ← map_view_detached freshBounds, alike']

/-- A slice that begins past the first element, searched, sliced again and trimmed. -/
theorem run_slice_of_slice :
    run [] [.newChars ['a', ' ', 'x', ',', 'b', ' '], .operate 0 (.chars .get)] =
      .ok ([.made, .chars (.ok (.element (some 'a')))],
        [.chars ⟨['a', ' ', 'x', ',', 'b', ' '], 0, 6, 1, 6, none⟩]) ∧
    ∃ answers sliced fresh,
      run [.chars ⟨['a', ' ', 'x', ',', 'b', ' '], 0, 6, 1, 6, none⟩]
          [.slice 0, .operate 1 (.chars (.seek ',')), .slice 1, .operate 2 (.chars .trim)] =
        .ok (.made :: answers, .chars ⟨['a', ' ', 'x', ',', 'b', ' '], 0, 6, 1, 6, none⟩ :: sliced) ∧
      run [] [.newChars [' ', 'x', ',', 'b', ' '], .operate 0 (.chars (.seek ',')), .slice 0,
          .operate 1 (.chars .trim)] =
        .ok (.made :: answers, fresh) ∧
      sliced.map Register.view = fresh.map Register.view := by
  have reached : run [] [.newChars ['a', ' ', 'x', ',', 'b', ' '], .operate 0 (.chars .get)] =
      .ok ([.made, .chars (.ok (.element (some 'a')))],
        [.chars ⟨['a', ' ', 'x', ',', 'b', ' '], 0, 6, 1, 6, none⟩]) := rfl
  have found : ([.chars ⟨['a', ' ', 'x', ',', 'b', ' '], 0, 6, 1, 6, none⟩] : Bank)[0]? =
      some (.chars ⟨['a', ' ', 'x', ',', 'b', ' '], 0, 6, 1, 6, none⟩) := rfl
  exact ⟨reached, run_slice reached found
    [.operate 0 (.chars (.seek ',')), .slice 0, .operate 1 (.chars .trim)]⟩

end Bank

end RowStore
