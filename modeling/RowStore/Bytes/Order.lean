import RowStore.Bytes
import RowStore.Error

/-! The two byte orders of a machine word. -/

namespace RowStore

inductive ByteOrder where
  | little
  | big
deriving Repr, DecidableEq

/-- The machine that row files are written on. -/
class Host where
  order : ByteOrder

namespace ByteOrder

/-- The order in which row files are written. -/
def native [Host] : ByteOrder := Host.order

def id : ByteOrder → Nat
  | little => 0
  | big => 1

def ofId? : Nat → Option ByteOrder
  | 0 => some little
  | 1 => some big
  | _ => none

theorem ofId?_eq_some_iff {id : Nat} {order : ByteOrder} :
    ofId? id = some order ↔ order.id = id := by
  constructor
  · intro found
    match id, order, found with
    | 0, _, rfl => rfl
    | 1, _, rfl => rfl
  · rintro rfl
    cases order <;> rfl

def label : ByteOrder → String
  | little => "Little"
  | big => "Big"

def write (order : ByteOrder) (width number : Nat) : Bytes :=
  match order with
  | little => Bytes.ofNat width number
  | big => (Bytes.ofNat width number).reverse

def read (order : ByteOrder) (bytes : Bytes) : Nat :=
  match order with
  | little => Bytes.toNat bytes
  | big => Bytes.toNat bytes.reverse

@[simp] theorem length_write (order : ByteOrder) (width number : Nat) :
    (order.write width number).length = width := by
  cases order <;> simp [write]

theorem write_read (order : ByteOrder) (bytes : Bytes) :
    order.write bytes.length (order.read bytes) = bytes := by
  cases order with
  | little => exact Bytes.ofNat_toNat bytes
  | big =>
      have reversed := Bytes.ofNat_toNat bytes.reverse
      rw [List.length_reverse] at reversed
      simp [read, write, reversed]

/-- Read the word at the front of a buffer; what follows it does not matter. -/
def readWord (order : ByteOrder) (reader : String) (width : Nat) (bytes : Bytes) :
    Except Error Nat :=
  if bytes.length < width then .error (.shortBuffer reader width bytes.length)
  else .ok (order.read (bytes.take width))

end ByteOrder

end RowStore
