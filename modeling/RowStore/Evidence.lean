import RowStore.Error
import RowStore.Text.Bmp

/-! What the fields of a column tell about its type.

Evidence is fed one character at a time and told where each field ends. It keeps no text: flags,
the largest magnitude, the greatest width and two counts are all that survives a field. The type
deduced is the narrowest one that holds every field seen.
-/

namespace RowStore

/-- How large the integers of a column are: the signed width that holds them all, if one does. -/
inductive Magnitude where
  | within (width : IntWidth)
  | beyond
deriving Repr, DecidableEq

namespace Magnitude

def rank : Magnitude → Nat
  | within width => width.rank
  | beyond => 4

def max (left right : Magnitude) : Magnitude := if left.rank < right.rank then right else left

/-- The negative range of a width reaches one further than the positive one. -/
def fits (width : IntWidth) (negative : Bool) (number : Nat) : Bool :=
  number ≤ width.size / 2 - 1 + (if negative then 1 else 0)

def ofNumber (negative : Bool) (number : Nat) : Magnitude :=
  if fits .w8 negative number then within .w8
  else if fits .w16 negative number then within .w16
  else if fits .w32 negative number then within .w32
  else if fits .w64 negative number then within .w64
  else beyond

/-- The signed integer type of a magnitude. -/
def type? : Magnitude → Option ColumnType
  | within width => some (.integer ⟨true, width⟩)
  | beyond => none

end Magnitude

/-- The field being fed. `magnitude` is its integer part, and saturates at 2 ^ 128 - 1. Digits and points
are counted in 32 bits, which a field of fewer than 2 ^ 32 characters does not exceed. -/
structure FieldScan where
  chars : Nat
  encoded : Nat
  magnitude : Nat
  negative : Bool
  mantissaDigits : Nat
  points : Nat
  inExponent : Bool
  last : Option Char
deriving Repr, DecidableEq

namespace FieldScan

def empty : FieldScan := ⟨0, 0, 0, false, 0, 0, false, none⟩

def afterMark (scan : FieldScan) : Bool := scan.last = some 'e' || scan.last = some 'E'

/-- Does the field end in a sign or an exponent mark? -/
def dangling (scan : FieldScan) : Bool :=
  scan.afterMark || scan.last = some '+' || scan.last = some '-'

def magnitudeLimit : Nat := (1 <<< 128) - 1

def digit (scan : FieldScan) (value : Nat) : FieldScan :=
  if scan.inExponent then scan
  else
    { scan with
      mantissaDigits := scan.mantissaDigits + 1
      magnitude :=
        if scan.points = 0 then min (10 * scan.magnitude + value) magnitudeLimit
        else scan.magnitude }

end FieldScan

structure Evidence where
  nonNumeric : Bool
  signSeen : Bool
  pointSeen : Bool
  exponentSeen : Bool
  magnitude : Magnitude
  width : Nat
  empty : Nat
  nonEmpty : Nat
  field : FieldScan
deriving Repr, DecidableEq

/-- A type and the slot width it needs. -/
structure Deduction where
  type : ColumnType
  width : Nat
deriving Repr, DecidableEq

namespace Evidence

def none : Evidence := ⟨false, false, false, false, .within .w8, 0, 0, 0, .empty⟩

instance : Inhabited Evidence := ⟨none⟩

def pushDigit (evidence : Evidence) (value : Nat) : Evidence :=
  { evidence with field := evidence.field.digit value }

/-- A sign may open a field or follow an exponent mark. -/
def pushSign (evidence : Evidence) (minus : Bool) : Evidence :=
  let scan := evidence.field
  if scan.chars = 0 then
    { evidence with signSeen := true, field := { scan with negative := minus } }
  else if scan.afterMark then { evidence with signSeen := true }
  else { evidence with nonNumeric := true }

/-- There may be one point, and none after an exponent mark. -/
def pushPoint (evidence : Evidence) : Evidence :=
  let scan := evidence.field
  { evidence with
    nonNumeric := evidence.nonNumeric || 0 < scan.points || scan.inExponent
    pointSeen := true
    field := { scan with points := scan.points + 1 } }

/-- There may be one exponent mark, and a digit before it. -/
def pushMark (evidence : Evidence) : Evidence :=
  let scan := evidence.field
  { evidence with
    nonNumeric := evidence.nonNumeric || scan.inExponent || scan.mantissaDigits = 0
    exponentSeen := true
    field := { scan with inExponent := true } }

def classify (evidence : Evidence) (c : Char) : Evidence :=
  if '0' ≤ c ∧ c ≤ '9' then evidence.pushDigit (c.toNat - 48)
  else if c = '+' ∨ c = '-' then evidence.pushSign (c = '-')
  else if c = '.' then evidence.pushPoint
  else if c = 'e' ∨ c = 'E' then evidence.pushMark
  else { evidence with nonNumeric := true }

/-- Feed the next character of the open field. -/
def push (evidence : Evidence) (c : Char) : Evidence :=
  let seen := evidence.classify c
  { seen with
    field := { seen.field with
      chars := seen.field.chars + 1
      encoded := seen.field.encoded + Text.Bmp.encodedLength c
      last := some c } }

def widthLimit : Nat := 65535

/-- What the content of a field says once it is complete. -/
def settle (evidence : Evidence) (scan : FieldScan) : Evidence :=
  if scan.chars = 0 then evidence
  else if scan.dangling || scan.mantissaDigits = 0 then { evidence with nonNumeric := true }
  else if scan.points = 0 && !scan.inExponent then
    { evidence with
      magnitude := evidence.magnitude.max (.ofNumber scan.negative scan.magnitude) }
  else evidence

/-- Close the open field, which takes `width` bytes where it stands. The width recorded is at least
the size of the characters fed once they are encoded again. -/
def endField (evidence : Evidence) (width : Nat) : Evidence :=
  let scan := evidence.field
  let closed := { evidence with field := .empty }
  if width = 0 ∧ scan.chars = 0 then { closed with empty := evidence.empty + 1 }
  else
    settle
      { closed with
        nonEmpty := evidence.nonEmpty + 1
        width := max evidence.width (min (max width scan.encoded) widthLimit) }
      scan

/-- Feed a whole field. -/
def observe (evidence : Evidence) (field : String) : Evidence :=
  (field.toList.foldl push evidence).endField field.utf8ByteSize

/-- A column without content is a text of no width. -/
def deduce (evidence : Evidence) : Deduction :=
  let text : Deduction := ⟨.string, evidence.width⟩
  if evidence.nonEmpty = 0 then ⟨.string, 0⟩
  else if evidence.nonNumeric || 0 < evidence.empty then text
  else if evidence.pointSeen || evidence.exponentSeen then ⟨.double, 8⟩
  else
    match evidence.magnitude with
    | .within width => ⟨.integer ⟨true, width⟩, width.bytes⟩
    | .beyond => text

/-- Add what another pass over the column has seen. -/
def merge (evidence other : Evidence) : Evidence :=
  { evidence with
    nonNumeric := evidence.nonNumeric || other.nonNumeric
    signSeen := evidence.signSeen || other.signSeen
    pointSeen := evidence.pointSeen || other.pointSeen
    exponentSeen := evidence.exponentSeen || other.exponentSeen
    magnitude := evidence.magnitude.max other.magnitude
    width := max evidence.width other.width
    empty := evidence.empty + other.empty
    nonEmpty := evidence.nonEmpty + other.nonEmpty }

/-- Lengthen a list of evidence with empty evidence. -/
def padded (length : Nat) (file : List Evidence) : List Evidence :=
  file ++ List.replicate (length - file.length) none

def mergeEach : List Evidence → List Evidence → List Evidence
  | column :: file, found :: line => column.merge found :: mergeEach file line
  | file, [] => file
  | [], _ :: _ => []

/-- Add the evidence of a line to that of a file, which grows if the line is wider. -/
def mergeAll (file line : List Evidence) : List Evidence :=
  mergeEach (padded line.length file) line

/-- The counts are 32-bit; counting further traps. -/
def counted (evidence : Evidence) : Except Error Evidence :=
  if evidence.empty < UInt32.size ∧ evidence.nonEmpty < UInt32.size then .ok evidence
  else .error (.trap .overflow)

/-- Observe a whole field. The counters of a field are 32-bit too. -/
def observeCounted (evidence : Evidence) (field : String) : Except Error Evidence :=
  let fed := field.toList.foldl push evidence
  if fed.field.mantissaDigits < UInt32.size ∧ fed.field.points < UInt32.size then
    (fed.endField field.utf8ByteSize).counted
  else .error (.trap .overflow)

/-- Observe fields one after another. -/
def observeAll (evidence : Evidence) (fields : List String) : Except Error Evidence :=
  fields.foldlM observeCounted evidence

/-- Add what another pass over the column has seen, if that can be counted. -/
def mergeCounted (evidence other : Evidence) : Except Error Evidence :=
  (evidence.merge other).counted

/-- Change the evidence of one column, in a list that grows as needed. -/
def update (file : List Evidence) (column : Nat) (change : Evidence → Evidence) : List Evidence :=
  (padded (column + 1) file).modify column change

end Evidence

end RowStore
