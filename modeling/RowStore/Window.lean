import RowStore.Error
import RowStore.Text.Blank
import RowStore.Text.Bmp

/-! Bounded cursors over a shared sequence.

A window covers `capacity` elements of its backing from `base` on. Position, limit and mark count
from the start of the window, and the content is what lies between position and limit. No operation
writes to the backing; a slice is a new window over the content of an old one and shares its
backing.
-/

namespace RowStore

/-- Elements that can be white space. A byte is, if its Latin-1 character is. -/
class Blank (α : Type) where
  isBlank : α → Bool

instance : Blank Char := ⟨Text.isBlank⟩

instance : Blank UInt8 := ⟨fun byte => Text.isBlank (Text.Bmp.latin1 byte)⟩

structure Window (α : Type) where
  backing : List α
  base : Nat
  capacity : Nat
  position : Nat
  limit : Nat
  mark : Option Nat
deriving Repr, DecidableEq

namespace Window

variable {α : Type}

def ofList (elements : List α) : Window α :=
  ⟨elements, 0, elements.length, 0, elements.length, none⟩

/-- The window lies in its backing, and position and limit lie in the window in this order. -/
def WellFormed (window : Window α) : Prop :=
  window.position ≤ window.limit ∧ window.limit ≤ window.capacity ∧
    window.base + window.capacity ≤ window.backing.length

theorem ofList_wellFormed (elements : List α) : (ofList elements).WellFormed := by
  simp [WellFormed, ofList]

/-- The elements between position and limit. -/
def content (window : Window α) : List α :=
  (window.backing.drop (window.base + window.position)).take (window.limit - window.position)

def remaining (window : Window α) : Nat := window.limit - window.position

def hasRemaining (window : Window α) : Bool := window.position < window.limit

def isEmpty (window : Window α) : Bool := window.position = window.limit

@[simp] theorem content_ofList (elements : List α) : (ofList elements).content = elements := by
  simp [content, ofList]

theorem length_content {window : Window α} (wellFormed : window.WellFormed) :
    window.content.length = window.remaining := by
  obtain ⟨lower, upper, inside⟩ := wellFormed
  simp only [content, remaining, List.length_take, List.length_drop]
  omega

/-- The element at an index of the window, whatever position and limit are. -/
def at? (window : Window α) (index : Nat) : Option α :=
  if index < window.capacity then window.backing[window.base + index]? else none

def peek? (window : Window α) : Option α :=
  if window.hasRemaining then window.backing[window.base + window.position]? else none

/-- The element at the position, and the window moved past it. -/
def get (window : Window α) : Except Error (α × Window α) :=
  if window.hasRemaining then
    match window.backing[window.base + window.position]? with
    | some element => .ok (element, { window with position := window.position + 1 })
    | none => .error (.trap .outOfBounds)
  else .error (.outOfRange window.position window.limit)

/-- Forget a mark beyond a limit. -/
def keptMark (mark : Option Nat) (limit : Nat) : Option Nat := mark.filter (· ≤ limit)

def setPosition (window : Window α) (position : Nat) : Except Error (Window α) :=
  if position ≤ window.limit then .ok { window with position }
  else .error (.outOfRange position window.limit)

/-- Position and mark do not stay behind a new limit. -/
def setLimit (window : Window α) (limit : Nat) : Except Error (Window α) :=
  if limit ≤ window.capacity then
    .ok { window with
      limit
      position := min window.position limit
      mark := keptMark window.mark limit }
  else .error (.outOfRange limit window.capacity)

def setMark (window : Window α) : Window α := { window with mark := some window.position }

/-- Back to the mark, if there is one. -/
def reset (window : Window α) : Window α :=
  match window.mark with
  | some mark => { window with position := min mark window.limit }
  | none => window

/-- What has been passed becomes the content. -/
def flip (window : Window α) : Window α :=
  { window with position := 0, limit := window.position, mark := none }

def rewind (window : Window α) : Window α := { window with position := 0 }

def clear (window : Window α) : Window α :=
  { window with position := 0, limit := window.capacity, mark := none }

def slice (window : Window α) : Window α :=
  { window with
    base := window.base + window.position
    capacity := window.remaining
    position := 0
    limit := window.remaining
    mark := none }

def decrement (window : Window α) : Except Error (Window α) :=
  if window.position = 0 then .error .underflow
  else .ok { window with position := window.position - 1 }

def increment (window : Window α) : Except Error (Window α) :=
  if window.hasRemaining then .ok { window with position := window.position + 1 }
  else .error (.overflow window.position)

section Trimming

/-- Move the limit back over elements of a kind. The mark stays where it is. -/
def dropEndWhile (kind : α → Bool) (window : Window α) : Window α :=
  { window with limit := window.limit - (window.content.reverse.takeWhile kind).length }

def skipWhile (kind : α → Bool) (window : Window α) : Window α :=
  { window with position := window.position + (window.content.takeWhile kind).length }

/-- Shrink the content from both ends over elements of a kind. -/
def shrinkWhile (kind : α → Bool) (window : Window α) : Window α :=
  let leading := (window.content.takeWhile kind).length
  let trailing := ((window.content.drop leading).reverse.takeWhile kind).length
  { window with
    position := window.position + leading
    limit := window.limit - trailing
    mark := keptMark window.mark (window.limit - trailing) }

variable [Blank α]

def skipBlank (window : Window α) : Window α := window.skipWhile Blank.isBlank

def dropEndBlank (window : Window α) : Window α := window.dropEndWhile Blank.isBlank

def trim (window : Window α) : Window α := window.shrinkWhile Blank.isBlank

end Trimming

section Searching

variable [DecidableEq α]

/-- Index of the first occurrence of an element. -/
def indexOf? (target : α) (elements : List α) : Option Nat := elements.findIdx? (· = target)

/-- Index of the first occurrence that no escape stands before. An escape takes the force of the
next element, be it a target or another escape. -/
def liveIndexOf? (target escape : α) : (escaped : Bool) → List α → Option Nat
  | _, [] => none
  | true, _ :: rest => (liveIndexOf? target escape false rest).map (· + 1)
  | false, element :: rest =>
      if element = target then some 0
      else (liveIndexOf? target escape (element = escape) rest).map (· + 1)

/-- Index at which a sequence first occurs. -/
def occurrence? (sequence : List α) : List α → Option Nat
  | [] => if sequence.isEmpty then some 0 else none
  | element :: rest =>
      if sequence.isPrefixOf (element :: rest) then some 0
      else (occurrence? sequence rest).map (· + 1)

/-- Move forward by a number of elements if a search gave one. -/
def advance? (window : Window α) : Option Nat → Bool × Window α
  | some count => (true, { window with position := window.position + count })
  | none => (false, window)

def seek (window : Window α) (target : α) : Bool × Window α :=
  window.advance? ((indexOf? target window.content).map (· + 1))

def seekLive (window : Window α) (target escape : α) : Bool × Window α :=
  window.advance? ((liveIndexOf? target escape false window.content).map (· + 1))

def seekSequence (window : Window α) (sequence : List α) : Bool × Window α :=
  if sequence.isEmpty then (true, window)
  else window.advance? ((occurrence? sequence window.content).map (· + sequence.length))

/-- Take away a pair of delimiters around the trimmed content, if it is there. -/
def strip [Blank α] (window : Window α) (opening closing : α) : Bool × Window α :=
  let probe := window.trim
  let inner := probe.content
  if 2 ≤ inner.length ∧ inner.head? = some opening ∧ inner.getLast? = some closing then
    (true, { window with
      position := probe.position + 1
      limit := probe.limit - 1
      mark := keptMark window.mark (probe.limit - 1) })
  else (false, window)

/-- Same cursor state and same content, whatever the backing is. -/
def same (left right : Window α) : Bool :=
  left.position = right.position && left.limit = right.limit && left.mark = right.mark &&
    left.capacity = right.capacity && left.content = right.content

end Searching

/-- The cursor state and the first four elements. -/
def describe (render : α → String) (window : Window α) : String :=
  let mark := match window.mark with
    | some mark => s!"Some({mark})"
    | none => "None"
  let head := ", ".intercalate ((window.content.take 4).map render)
  "Window \x7b pos: " ++ toString window.position ++ ", limit: " ++ toString window.limit ++
    ", mark: " ++ mark ++ ", capacity: " ++ toString window.capacity ++ ", head: [" ++ head ++
    "] \x7d"

end Window

abbrev CharWindow := Window Char

abbrev ByteWindow := Window UInt8

namespace CharWindow

def text (window : CharWindow) : String := String.ofList window.content

def encode (window : CharWindow) : Except Error ByteWindow :=
  (Text.Bmp.encode window.content).map Window.ofList

def unquote (window : CharWindow) : Bool × CharWindow := window.strip '"' '"'

def unbrace (window : CharWindow) : Bool × CharWindow := window.strip '\x7b' '\x7d'

def unbracket (window : CharWindow) : Bool × CharWindow := window.strip '[' ']'

end CharWindow

namespace ByteWindow

def decode (window : ByteWindow) : Except Error CharWindow :=
  (Text.Bmp.decode window.content).map Window.ofList

end ByteWindow

end RowStore
