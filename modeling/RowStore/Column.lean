import RowStore.Error

/-! Columns: a name, a type and the bytes they take in a row.

A column that only exists as text has no place in a row; its bounds are -1. A column that passes
through several types on its way from text to stored row names the later ones in `stages`.
-/

namespace RowStore

/-- A range of positions, the last one excluded. -/
structure Span where
  start : Nat
  stop : Nat
deriving Repr, DecidableEq

namespace Span

def length (span : Span) : Nat := span.stop - span.start

end Span

structure Slot where
  name : String
  type : ColumnType
  start : Int32
  stop : Int32
deriving Repr, DecidableEq

namespace Slot

def isPlaced (slot : Slot) : Bool := 0 ≤ slot.start && 0 ≤ slot.stop

/-- The bytes of the slot, if it has a place. -/
def span? (slot : Slot) : Option Span :=
  if slot.isPlaced then some ⟨slot.start.toInt.toNat, slot.stop.toInt.toNat⟩ else none

/-- Why the slot cannot stand where it is. -/
def flaw? (slot : Slot) : Option PlacementFlaw :=
  if (slot.start < 0) ≠ (slot.stop < 0) then
    some (.halfPlaced slot.start.toInt slot.stop.toInt)
  else if !slot.isPlaced then none
  else if slot.stop < slot.start then some (.reversed slot.start.toInt slot.stop.toInt)
  else
    match slot.type.size? with
    | some size =>
        let room := (slot.stop.toInt - slot.start.toInt).toNat
        if room = size then none else some (.wrongSize slot.type size room)
    | none => none

end Slot

structure Column extends Slot where
  stages : List Slot
deriving Repr, DecidableEq

namespace Column

/-- A column without a place. -/
def text (name : String) (type : ColumnType) : Column := ⟨⟨name, type, -1, -1⟩, []⟩

def withStages (column : Column) (next : Column) : Column :=
  { column with stages := next.toSlot :: next.stages }

/-- The column of the next stage. -/
def next? (column : Column) : Option Column :=
  match column.stages with
  | [] => none
  | slot :: rest => some ⟨slot, rest⟩

def withoutStages (column : Column) : Column := { column with stages := [] }

/-- The type that values end up in. -/
def finalType (column : Column) : ColumnType :=
  match column.stages.getLast? with
  | some slot => slot.type
  | none => column.type

/-- Check slots in order. What follows a slot without a place does not matter. -/
def validateSlots : List Slot → Except Error Unit
  | [] => .ok ()
  | slot :: rest =>
      match slot.flaw? with
      | some flaw => .error (.invalidDescriptor slot.name flaw)
      | none => if slot.isPlaced then validateSlots rest else .ok ()

def validate (column : Column) : Except Error Unit :=
  validateSlots (column.toSlot :: column.stages)

/-- A column at a place, if it can stand there. -/
def placed (name : String) (type : ColumnType) (start stop : Int32) : Except Error Column :=
  let column : Column := ⟨⟨name, type, start, stop⟩, []⟩
  column.validate.map fun _ => column

end Column

abbrev Layout := List Column

namespace Layout

/-- Place columns one after another from `offset` on. Each takes the size of its type, or the given
width if the type has none. -/
def placeFrom (offset : Nat) : List (String × ColumnType × Nat) → Except Error Layout
  | [] => .ok []
  | (name, type, width) :: rest =>
      let stop := offset + type.size?.getD width
      if stop ≤ 2147483647 then do
        let column ← Column.placed name type (Int32.ofNat offset) (Int32.ofNat stop)
        let columns ← placeFrom stop rest
        .ok (column :: columns)
      else .error (.invalidDescriptor name .layoutTooLong)

def place (columns : List (String × ColumnType × Nat)) : Except Error Layout := placeFrom 0 columns

/-- Bytes of a row: where its last slot ends. -/
def rowLength (layout : Layout) : Nat :=
  layout.foldl (fun longest column => max longest ((column.span?.map Span.stop).getD 0)) 0

/-- The first column of a name. -/
def indexOf? (layout : Layout) (name : String) : Option Nat :=
  layout.findIdx? (·.name = name)

end Layout

end RowStore
