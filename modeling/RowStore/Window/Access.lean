import RowStore.Window.Step

/-! Windows read through their backing.

Every element is fetched from the backing by its index, and whatever lies outside the backing traps:
an index behind its end, a stretch that ends before it begins or behind the end, a difference below
zero. No other step of an operation can fail.
-/

namespace RowStore.Window

variable {α : Type}

section Reading

def fetch (window : Window α) (index : Nat) : Except Trap α :=
  match window.backing[window.base + index]? with
  | some element => .ok element
  | none => .error .outOfBounds

/-- The part of the backing between position and limit. -/
def stretch (window : Window α) : Except Trap (List α) :=
  if window.position ≤ window.limit ∧ window.base + window.limit ≤ window.backing.length then
    .ok window.content
  else .error .outOfBounds

def fetchSlice (window : Window α) : Except Trap (Window α) :=
  if window.position ≤ window.limit then .ok window.slice else .error .overflow

end Reading

section Passing

/-- The first index from `position` on whose element is not of a kind, among the next `count`. -/
def passAhead (kind : α → Bool) (window : Window α) (position : Nat) :
    (count : Nat) → Except Trap Nat
  | 0 => .ok position
  | count + 1 => do
      let element ← window.fetch position
      if kind element then passAhead kind window (position + 1) count else .ok position

/-- How far a limit can move back over elements of a kind, among the `count` before it. -/
def passBack (kind : α → Bool) (window : Window α) (limit : Nat) :
    (count : Nat) → Except Trap Nat
  | 0 => .ok limit
  | count + 1 => do
      let element ← window.fetch (limit - 1)
      if kind element then passBack kind window (limit - 1) count else .ok limit

/-- Both ends moved towards each other over elements of a kind, the front end first. -/
def passBoth (kind : α → Bool) (window : Window α) : Except Trap (Window α) := do
  let position ← window.passAhead kind window.position (window.limit - window.position)
  let limit ← window.passBack kind window.limit (window.limit - position)
  return { window with position, limit, mark := keptMark window.mark limit }

end Passing

variable [DecidableEq α] [Blank α]

/-- Take away a pair of delimiters, looked for in a copy that is trimmed. -/
def passDelimiters (window : Window α) (opening closing : α) : Except Trap (Bool × Window α) := do
  let probe ← window.passBoth Blank.isBlank
  let inner ← probe.stretch
  if 2 ≤ inner.length ∧ inner.head? = some opening ∧ inner.getLast? = some closing then
    let limit := probe.limit - 1
    return (true,
      { window with position := probe.position + 1, limit, mark := keptMark window.mark limit })
  else return (false, window)

/-- Run one operation on the backing. Operations that read no element are as they are. -/
def perform (window : Window α) : Step α → Except Trap (Except Error (Reply α) × Window α)
  | .get =>
      if window.hasRemaining then do
        let element ← window.fetch window.position
        return (.ok (.element (some element)), { window with position := window.position + 1 })
      else .ok (.error (.outOfRange window.position window.limit), window)
  | .peek =>
      if window.hasRemaining then do
        return (.ok (.element (some (← window.fetch window.position))), window)
      else .ok (.ok (.element none), window)
  | .at index =>
      if index < window.capacity then do
        return (.ok (.element (some (← window.fetch index))), window)
      else .ok (.ok (.element none), window)
  | .skipBlank => do
      let position ←
        window.passAhead Blank.isBlank window.position (window.limit - window.position)
      return (.ok .done, { window with position })
  | .dropEndBlank => do
      let limit ← window.passBack Blank.isBlank window.limit (window.limit - window.position)
      return (.ok .done, { window with limit })
  | .trim => do return (.ok .done, ← window.passBoth Blank.isBlank)
  | .shrinkWhile kind => do return (.ok .done, ← window.passBoth kind)
  | .seek target => do
      let content ← window.stretch
      return answering (window.advance? ((indexOf? target content).map (· + 1)))
  | .seekLive target escape => do
      let content ← window.stretch
      return answering (window.advance? ((liveIndexOf? target escape false content).map (· + 1)))
  | .seekSequence sequence =>
      if sequence.isEmpty then .ok (answering (true, window))
      else do
        let content ← window.stretch
        return answering (window.advance? ((occurrence? sequence content).map (· + sequence.length)))
  | .strip opening closing => do return answering (← window.passDelimiters opening closing)
  | .toList => do return (.ok (.sequence (← window.stretch)), window)
  | step => .ok (window.apply step)

end RowStore.Window
