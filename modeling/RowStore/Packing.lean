import RowStore.Error
import RowStore.Number.Binary

/-! Two small values in one machine word.

The first value takes the bits above those of the second. Two values share a word only when their
widths add up to at most 64 bits; a pair that does not fit is kept as it is.
-/

namespace RowStore

namespace Packing

/-- The lowest `width` bits, or all bits of the word. -/
def mask (width : Nat) : UInt64 := UInt64.ofNat ((1 <<< min width 64) - 1)

/-- Move a word up by a number of bits, past its end too. -/
def raise (word : UInt64) (count : Nat) : UInt64 :=
  if count < 64 then word <<< UInt64.ofNat count else 0

def lower (word : UInt64) (count : Nat) : UInt64 :=
  if count < 64 then word >>> UInt64.ofNat count else 0

/-- A word of which only the lowest bits count. -/
structure Bits where
  word : UInt64
  width : Nat
deriving Repr, DecidableEq

def pack (first second : Bits) : Except Error UInt64 :=
  if 64 < first.width + second.width then .error (.tooWide first.width second.width)
  else
    .ok (raise (first.word &&& mask first.width) second.width |||
      (second.word &&& mask second.width))

def unpack (word : UInt64) (firstWidth secondWidth : Nat) : UInt64 × UInt64 :=
  (lower word secondWidth &&& mask firstWidth, word &&& mask secondWidth)

end Packing

/-- The types whose values fit a word. -/
inductive Packable where
  | integer (type : IntType)
  | single
  | double
  | char
deriving Repr, DecidableEq

namespace Packable

abbrev Elem : Packable → Type
  | integer type => type.Elem
  | single => Single
  | double => Double
  | char => Char

def width : Packable → Nat
  | integer type => type.width.bits
  | single => 32
  | double => 64
  | char => 32

def toWord : (type : Packable) → type.Elem → UInt64
  | integer type, value => UInt64.ofNat (type.pattern value)
  | single, value => value.bits.toUInt64
  | double, value => value.bits
  | char, value => value.val.toUInt64

/-- Bits above the width do not matter. Bits that are no character stand for U+FFFD. -/
def ofWord : (type : Packable) → UInt64 → type.Elem
  | integer type, word => type.ofPattern word.toNat
  | single, word => ⟨word.toUInt32⟩
  | double, word => ⟨word⟩
  | char, word =>
      if valid : word.toUInt32.isValidChar then ⟨word.toUInt32, valid⟩ else '\ufffd'

def bits (type : Packable) (value : type.Elem) : Packing.Bits := ⟨type.toWord value, type.width⟩

end Packable

namespace Packing

def packValues (first second : Packable) (left : first.Elem) (right : second.Elem) :
    Except Error UInt64 :=
  pack (first.bits left) (second.bits right)

def unpackValues (first second : Packable) (word : UInt64) : first.Elem × second.Elem :=
  let (left, right) := unpack word first.width second.width
  (first.ofWord left, second.ofWord right)

end Packing

/-- Two values, in one word if they fit. -/
inductive PackedPair (first second : Packable) where
  | packed (word : UInt64)
  | plain (left : first.Elem) (right : second.Elem)

namespace PackedPair

variable {first second : Packable}

def ofPair (left : first.Elem) (right : second.Elem) : PackedPair first second :=
  match Packing.packValues first second left right with
  | .ok word => .packed word
  | .error _ => .plain left right

def toPair : PackedPair first second → first.Elem × second.Elem
  | packed word => Packing.unpackValues first second word
  | plain left right => (left, right)

def left (pair : PackedPair first second) : first.Elem := pair.toPair.1

def right (pair : PackedPair first second) : second.Elem := pair.toPair.2

/-- The word, if there is one. -/
def word? : PackedPair first second → Option UInt64
  | packed word => some word
  | plain _ _ => none

def isPacked (pair : PackedPair first second) : Bool := pair.word?.isSome

end PackedPair

end RowStore
