import RowStore.Window

/-! The operations of a window as data, and what each of them does. -/

namespace RowStore.Window

inductive Step (α : Type) where
  | get
  | peek
  | at (index : Nat)
  | setPosition (position : Nat)
  | setLimit (limit : Nat)
  | mark
  | reset
  | flip
  | rewind
  | clear
  | skipBlank
  | dropEndBlank
  | trim
  | shrinkWhile (kind : α → Bool)
  | decrement
  | increment
  | seek (target : α)
  | seekLive (target escape : α)
  | seekSequence (sequence : List α)
  | strip (opening closing : α)
  | toList

/-- What an operation answers when it succeeds. -/
inductive Reply (α : Type) where
  | done
  | element (value : Option α)
  | found (value : Bool)
  | sequence (value : List α)
deriving Repr, DecidableEq

variable {α : Type} [DecidableEq α] [Blank α]

/-- Replace the window by the result of an operation that may refuse. -/
def attempt (window : Window α) : Except Error (Window α) → Except Error (Reply α) × Window α
  | .ok next => (.ok .done, next)
  | .error reason => (.error reason, window)

def answering : Bool × Window α → Except Error (Reply α) × Window α
  | (found, next) => (.ok (.found found), next)

/-- Run one operation. A refused one leaves the window as it was. -/
def apply (window : Window α) : Step α → Except Error (Reply α) × Window α
  | .get =>
      match window.get with
      | .ok (element, next) => (.ok (.element (some element)), next)
      | .error reason => (.error reason, window)
  | .peek => (.ok (.element window.peek?), window)
  | .at index => (.ok (.element (window.at? index)), window)
  | .setPosition position => window.attempt (window.setPosition position)
  | .setLimit limit => window.attempt (window.setLimit limit)
  | .mark => (.ok .done, window.setMark)
  | .reset => (.ok .done, window.reset)
  | .flip => (.ok .done, window.flip)
  | .rewind => (.ok .done, window.rewind)
  | .clear => (.ok .done, window.clear)
  | .skipBlank => (.ok .done, window.skipBlank)
  | .dropEndBlank => (.ok .done, window.dropEndBlank)
  | .trim => (.ok .done, window.trim)
  | .shrinkWhile kind => (.ok .done, window.shrinkWhile kind)
  | .decrement => window.attempt window.decrement
  | .increment => window.attempt window.increment
  | .seek target => answering (window.seek target)
  | .seekLive target escape => answering (window.seekLive target escape)
  | .seekSequence sequence => answering (window.seekSequence sequence)
  | .strip opening closing => answering (window.strip opening closing)
  | .toList => (.ok (.sequence window.content), window)

end RowStore.Window
