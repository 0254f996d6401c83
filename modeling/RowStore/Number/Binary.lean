import RowStore.Number.Rounding

/-! Binary floating point values as bit patterns.

`decode` takes a pattern of a format to the number it stands for, `encode` rounds a number
`mantissa * 2 ^ scale` to the nearest pattern, to the even one of two equally near. `Double` and
`Single` keep the pattern itself, so no NaN payload is ever lost; arithmetic on doubles is that of
the machine, and an operation on numbers without a numeric result gives the indefinite NaN, which
has its sign bit set.
-/

namespace RowStore

/-- Widths of the stored fraction and of the exponent field. -/
structure BinaryFormat where
  fraction : Nat
  exponent : Nat
deriving Repr, DecidableEq

/-- What a bit pattern stands for. A finite one is `mantissa * 2 ^ scale`. -/
inductive BinaryDatum where
  | finite (negative : Bool) (mantissa : Nat) (scale : Int)
  | infinite (negative : Bool)
  | nan (negative : Bool) (payload : Nat)
deriving Repr, DecidableEq

namespace BinaryFormat

def single : BinaryFormat := ⟨23, 8⟩
def double : BinaryFormat := ⟨52, 11⟩

/-- Scale of the subnormal numbers, the least there is. -/
def leastScale (format : BinaryFormat) : Int :=
  2 - (1 <<< (format.exponent - 1) : Nat) - format.fraction

/-- The greatest exponent field, which no finite number has. -/
def topExponent (format : BinaryFormat) : Nat := (1 <<< format.exponent) - 1

def infinity (format : BinaryFormat) : Nat := format.topExponent <<< format.fraction

def signBit (format : BinaryFormat) (negative : Bool) : Nat :=
  if negative then 1 <<< (format.fraction + format.exponent) else 0

def decode (format : BinaryFormat) (pattern : Nat) : BinaryDatum :=
  let negative := (pattern >>> (format.fraction + format.exponent)) % 2 = 1
  let exponent := (pattern >>> format.fraction) % (1 <<< format.exponent)
  let fraction := pattern % (1 <<< format.fraction)
  if exponent = format.topExponent then
    if fraction = 0 then .infinite negative else .nan negative fraction
  else if exponent = 0 then .finite negative fraction format.leastScale
  else .finite negative ((1 <<< format.fraction) + fraction) (format.leastScale + (exponent - 1))

/-- The magnitude bits nearest to `mantissa * 2 ^ scale`. A carry out of the fraction moves into
the exponent field, as it should. -/
def roundMagnitude (format : BinaryFormat) (mantissa : Nat) (scale : Int) : Nat :=
  if mantissa = 0 then 0
  else
    let length : Int := mantissa.log2 + 1
    let target := max format.leastScale (scale + length - (format.fraction + 1))
    let significand :=
      if target ≤ scale then mantissa <<< (scale - target).toNat
      else roundDiv mantissa (1 <<< (target - scale).toNat)
    let pattern := ((target - format.leastScale).toNat <<< format.fraction) + significand
    min pattern format.infinity

def encode (format : BinaryFormat) : BinaryDatum → Nat
  | .finite negative mantissa scale =>
      format.signBit negative + format.roundMagnitude mantissa scale
  | .infinite negative => format.signBit negative + format.infinity
  | .nan negative payload =>
      format.signBit negative + format.infinity + payload % (1 <<< format.fraction)

/-- Move a pattern to another format. A NaN keeps the high end of its payload and becomes quiet. -/
def convert (source target : BinaryFormat) (pattern : Nat) : Nat :=
  match source.decode pattern with
  | .nan negative payload =>
      let aligned := (payload <<< target.fraction) >>> source.fraction
      target.encode (.nan negative (aligned ||| 1 <<< (target.fraction - 1)))
  | datum => target.encode datum

end BinaryFormat

structure Double where
  bits : UInt64
deriving Repr, DecidableEq

structure Single where
  bits : UInt32
deriving Repr, DecidableEq

namespace Double

def datum (value : Double) : BinaryDatum := BinaryFormat.double.decode value.bits.toNat

def ofDatum (datum : BinaryDatum) : Double := ⟨UInt64.ofNat (BinaryFormat.double.encode datum)⟩

/-- The double nearest to an integer. -/
def ofInt (value : Int) : Double := ofDatum (.finite (value < 0) value.natAbs 0)

def toFloat (value : Double) : Float := Float.ofBits value.bits

/-- The pattern of a computed number. -/
def ofFloat (result : Float) : Double :=
  if result.isNaN then ⟨0xFFF8000000000000⟩ else ⟨result.toBits⟩

def add (left right : Double) : Double := ofFloat (left.toFloat + right.toFloat)
def mul (left right : Double) : Double := ofFloat (left.toFloat * right.toFloat)
def div (left right : Double) : Double := ofFloat (left.toFloat / right.toFloat)

/-- Negation flips the sign bit, also of a zero and of a NaN. -/
def neg (value : Double) : Double := ⟨value.bits ^^^ 0x8000000000000000⟩

/-- Equality of numbers: no NaN equals itself and both zeros are equal. -/
def same (left right : Double) : Bool := left.toFloat == right.toFloat

/-- The integer that the value is, if it is one. -/
def toInt? (value : Double) : Option Int :=
  match value.datum with
  | .finite negative mantissa scale =>
      let magnitude? :=
        if 0 ≤ scale then some (mantissa <<< scale.toNat)
        else if mantissa % (1 <<< (-scale).toNat) = 0 then some (mantissa >>> (-scale).toNat)
        else none
      magnitude?.map fun magnitude => if negative then -(magnitude : Int) else magnitude
  | _ => none

def toSingle (value : Double) : Single :=
  ⟨UInt32.ofNat (BinaryFormat.double.convert .single value.bits.toNat)⟩

/-- A power of ten by repeated squaring. The order of the multiplications fixes the rounding. -/
def powerLoop (result base : Double) (exponent : Nat) : Double :=
  let result := if exponent % 2 = 1 then result.mul base else result
  if exponent / 2 = 0 then result else powerLoop result (base.mul base) (exponent / 2)
termination_by exponent

def tenPower (exponent : Nat) : Double := powerLoop (ofInt 1) (ofInt 10) exponent

end Double

namespace Single

def datum (value : Single) : BinaryDatum := BinaryFormat.single.decode value.bits.toNat

def toDouble (value : Single) : Double :=
  ⟨UInt64.ofNat (BinaryFormat.single.convert .double value.bits.toNat)⟩

def same (left right : Single) : Bool := left.toDouble.same right.toDouble

end Single

end RowStore
