/-! Integers of the eight machine types.

An element of a type is an integer together with the proof that it is in range. `wrap` takes any
integer to the one element with the same residue, `ofInt?` only accepts what is already in range.
-/

namespace RowStore

inductive IntWidth where
  | w8 | w16 | w32 | w64
deriving Repr, DecidableEq

namespace IntWidth

def bytes : IntWidth → Nat
  | w8 => 1
  | w16 => 2
  | w32 => 4
  | w64 => 8

def bits (width : IntWidth) : Nat := 8 * width.bytes

/-- How many values a word of this width has. -/
def size : IntWidth → Nat
  | w8 => UInt8.size
  | w16 => UInt16.size
  | w32 => UInt32.size
  | w64 => UInt64.size

/-- Position in the order of growing width. -/
def rank : IntWidth → Nat
  | w8 => 0
  | w16 => 1
  | w32 => 2
  | w64 => 3

theorem bytes_pos (width : IntWidth) : 0 < width.bytes := by
  cases width <;> decide

end IntWidth

structure IntType where
  signed : Bool
  width : IntWidth
deriving Repr, DecidableEq

namespace IntType

def modulus (type : IntType) : Nat := type.width.size

def least (type : IntType) : Int :=
  if type.signed then -(type.width.size / 2 : Nat) else 0

def greatest (type : IntType) : Int :=
  if type.signed then (type.width.size / 2 : Nat) - 1 else (type.width.size : Int) - 1

def Holds (type : IntType) (value : Int) : Prop := type.least ≤ value ∧ value ≤ type.greatest

instance (type : IntType) (value : Int) : Decidable (type.Holds value) :=
  inferInstanceAs (Decidable (_ ∧ _))

abbrev Elem (type : IntType) := { value : Int // type.Holds value }

/-- The integer of the type's range that differs by a multiple of the modulus. -/
def residue (type : IntType) (value : Int) : Int :=
  type.least + (value - type.least) % (type.modulus : Int)

theorem holds_residue (type : IntType) (value : Int) : type.Holds (type.residue value) := by
  obtain ⟨signed, width⟩ := type
  cases signed <;> cases width <;>
    simp only [Holds, residue, least, greatest, modulus, IntWidth.size, UInt8.size,
      UInt16.size, UInt32.size, UInt64.size, Bool.false_eq_true, if_true, if_false] <;> omega

/-- The element with the same residue modulo the size of the type. -/
def wrap (type : IntType) (value : Int) : type.Elem := ⟨type.residue value, type.holds_residue value⟩

theorem residue_of_holds {type : IntType} {value : Int} (holds : type.Holds value) :
    type.residue value = value := by
  obtain ⟨signed, width⟩ := type
  revert holds
  cases signed <;> cases width <;>
    simp only [Holds, residue, least, greatest, modulus, IntWidth.size, UInt8.size,
      UInt16.size, UInt32.size, UInt64.size, Bool.false_eq_true, if_true, if_false] <;> omega

def ofInt? (type : IntType) (value : Int) : Option type.Elem :=
  if holds : type.Holds value then some ⟨value, holds⟩ else none

/-- The two's complement bit pattern. -/
def pattern (type : IntType) (value : type.Elem) : Nat := (value.val % (type.modulus : Int)).toNat

def ofPattern (type : IntType) (pattern : Nat) : type.Elem := type.wrap pattern

theorem ofPattern_pattern (type : IntType) (value : type.Elem) :
    type.ofPattern (type.pattern value) = value := by
  obtain ⟨signed, width⟩ := type
  obtain ⟨value, holds⟩ := value
  apply Subtype.ext
  revert holds
  cases signed <;> cases width <;>
    simp only [ofPattern, wrap, pattern, Holds, residue, least, greatest, modulus, IntWidth.size,
      UInt8.size, UInt16.size, UInt32.size, UInt64.size, Bool.false_eq_true, if_true, if_false] <;>
    omega

/-- `i` or `u`, then the number of bits. -/
def name (type : IntType) : String :=
  (if type.signed then "i" else "u") ++ toString type.width.bits

def int8 : IntType := ⟨true, .w8⟩
def uint8 : IntType := ⟨false, .w8⟩
def int16 : IntType := ⟨true, .w16⟩
def uint16 : IntType := ⟨false, .w16⟩
def int32 : IntType := ⟨true, .w32⟩
def uint32 : IntType := ⟨false, .w32⟩
def int64 : IntType := ⟨true, .w64⟩
def uint64 : IntType := ⟨false, .w64⟩

end IntType

end RowStore
