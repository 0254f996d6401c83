import RowStore.Window.Access

/-! Windows of both kinds, numbered in the order in which they are made.

An action addresses a window by its number. It runs an operation on it, makes a new window of it, or
only looks at it. Where there is no window of that number, or the operation is one of the other
kind, nothing is done.
-/

namespace RowStore

/-- A window of one of the two kinds. -/
inductive Register where
  | chars (window : CharWindow)
  | bytes (window : ByteWindow)
deriving Repr, DecidableEq

abbrev Bank := List Register

namespace Bank

inductive Operation where
  | chars (step : Window.Step Char)
  | bytes (step : Window.Step UInt8)

inductive Action where
  | newChars (elements : List Char)
  | newBytes (elements : List UInt8)
  | operate (index : Nat) (operation : Operation)
  | slice (index : Nat)
  | clone (index : Nat)
  | recode (index : Nat)
  | text (index : Nat)
  | describe (index : Nat)
  | compare (index other : Nat)

inductive Answer where
  | chars (reply : Except Error (Window.Reply Char))
  | bytes (reply : Except Error (Window.Reply UInt8))
  | made
  | notMade (reason : Error)
  | text (value : String)
  | compared (same sameContent : Bool)
  | absent

end Bank

namespace Register

open Bank (Operation Answer)

/-- A step of the other kind is none of a window's operations. -/
def operate : Register → Operation → Except Trap (Option (Answer × Register))
  | chars window, .chars step => do
      let (reply, next) ← window.perform step
      return some (.chars reply, chars next)
  | bytes window, .bytes step => do
      let (reply, next) ← window.perform step
      return some (.bytes reply, bytes next)
  | _, _ => .ok none

def slice : Register → Except Trap Register
  | chars window => do return chars (← window.fetchSlice)
  | bytes window => do return bytes (← window.fetchSlice)

/-- The content in the other kind: characters encoded, bytes decoded. -/
def recode : Register → Except Trap (Except Error Register)
  | chars window => do
      return (Text.Bmp.encode (← window.stretch)).map fun encoded => bytes (Window.ofList encoded)
  | bytes window => do
      return (Text.Bmp.decode (← window.stretch)).map fun decoded => chars (Window.ofList decoded)

/-- Bytes are no text of their own. -/
def text : Register → Except Trap (Option Answer)
  | chars window => do return some (.text (String.ofList (← window.stretch)))
  | bytes _ => .ok none

def describe : Register → Except Trap Answer
  | chars window => do
      let _ ← window.stretch
      return .text (window.describe Text.quotedChar)
  | bytes window => do
      let _ ← window.stretch
      return .text (window.describe fun byte => toString byte.toNat)

/-- Windows of different kinds cannot be compared. -/
def compare : Register → Register → Except Trap (Option Answer)
  | chars left, chars right => do
      let sameContent := decide ((← left.stretch) = (← right.stretch))
      return some (.compared (left.same right) sameContent)
  | bytes left, bytes right => do
      let sameContent := decide ((← left.stretch) = (← right.stretch))
      return some (.compared (left.same right) sameContent)
  | _, _ => .ok none

end Register

namespace Bank

/-- Add a window, if one was made. -/
def add (bank : Bank) : Except Error Register → Answer × Bank
  | .ok made => (.made, bank ++ [made])
  | .error reason => (.notMade reason, bank)

/-- Do something with the window of a number. -/
def on (bank : Bank) (index : Nat) (use : Register → Except Trap (Answer × Bank)) :
    Except Trap (Answer × Bank) :=
  match bank[index]? with
  | some register => use register
  | none => .ok (.absent, bank)

def act (bank : Bank) : Action → Except Trap (Answer × Bank)
  | .newChars elements => .ok (bank.add (.ok (.chars (Window.ofList elements))))
  | .newBytes elements => .ok (bank.add (.ok (.bytes (Window.ofList elements))))
  | .operate index operation => bank.on index fun register => do
      match ← register.operate operation with
      | some (answer, next) => return (answer, bank.set index next)
      | none => return (.absent, bank)
  | .slice index => bank.on index fun register => do return bank.add (.ok (← register.slice))
  | .clone index => bank.on index fun register => .ok (bank.add (.ok register))
  | .recode index => bank.on index fun register => do return bank.add (← register.recode)
  | .text index => bank.on index fun register => do return ((← register.text).getD .absent, bank)
  | .describe index => bank.on index fun register => do return (← register.describe, bank)
  | .compare index other => bank.on index fun register => bank.on other fun found => do
      return ((← register.compare found).getD .absent, bank)

/-- Run actions one after another, refused ones included. -/
def run (bank : Bank) : List Action → Except Trap (List Answer × Bank)
  | [] => .ok ([], bank)
  | action :: rest => do
      let (answer, next) ← bank.act action
      let (answers, last) ← run next rest
      return (answer :: answers, last)

end Bank

end RowStore
