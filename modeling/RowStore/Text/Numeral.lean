import RowStore.Error
import RowStore.Number.Binary

/-! The grammars of booleans, integers and decimals in text.

Integers are accumulated modulo 2 ^ 64. Decimals are scanned character by character; the digits
before and after the point make one mantissa, which is scaled by a power of ten at the end. The
counters of the scan are 32-bit integers, and a count that leaves their range traps.
-/

namespace RowStore.Text

def malformed (text : List Char) (flaw : NumberFlaw) : Error :=
  .malformedNumber (String.ofList text) flaw

def digit? (c : Char) : Option Nat :=
  if '0' ≤ c ∧ c ≤ '9' then some (c.toNat - 48) else none

/-- Is there a minus sign, and what follows the sign? -/
def splitSign : List Char → Bool × List Char
  | '-' :: rest => (true, rest)
  | '+' :: rest => (false, rest)
  | text => (false, text)

/-- The first character decides. -/
def readBoolean (text : List Char) : Except Error Bool :=
  match text with
  | c :: _ =>
      if c = 't' ∨ c = 'T' ∨ c = '1' then .ok true
      else if c = 'f' ∨ c = 'F' ∨ c = '0' then .ok false
      else .error (.invalidBoolean (String.ofList text))
  | [] => .error (.invalidBoolean "")

def accumulate (text : List Char) (value : Int64) : List Char → Except Error Int64
  | [] => .ok value
  | c :: rest =>
      match digit? c with
      | some digit => accumulate text (value * 10 + Int64.ofNat digit) rest
      | none => .error (malformed text .unexpectedCharacter)

/-- An optional sign and at least one digit. -/
def readInteger (text : List Char) : Except Error Int64 :=
  let (negative, digits) := splitSign text
  if digits.isEmpty then .error (malformed text .noDigits)
  else (accumulate text 0 digits).map fun value => if negative then -value else value

/-- Greatest value of the counters of a decimal scan. -/
def counterLimit : Nat := 2147483647

/-- The part of a decimal after its exponent mark. It is `fresh` until its first character. -/
structure ExponentScan where
  negative : Bool
  magnitude : Nat
  digits : Nat
  fresh : Bool
deriving Repr, DecidableEq

structure DecimalScan where
  mantissa : Double
  digits : Nat
  pointSeen : Bool
  places : Nat
  exponent : Option ExponentScan
deriving Repr, DecidableEq

def DecimalScan.start : DecimalScan := ⟨.ofInt 0, 0, false, 0, none⟩

/-- Further digits of an exponent at the limit change nothing. -/
def ExponentScan.step (text : List Char) (scan : ExponentScan) (c : Char) :
    Except Error ExponentScan :=
  match digit? c with
  | some digit =>
      .ok { scan with
        magnitude := min (10 * scan.magnitude + digit) counterLimit
        digits := scan.digits + 1
        fresh := false }
  | none =>
      if (c = '+' ∨ c = '-') ∧ scan.fresh then
        .ok { scan with negative := c = '-', fresh := false }
      else if c = '.' then .error (malformed text .pointInExponent)
      else if c = 'e' ∨ c = 'E' then .error (malformed text .secondExponent)
      else .error (malformed text .unexpectedCharacter)

def DecimalScan.stepMantissa (text : List Char) (scan : DecimalScan) (c : Char) :
    Except Error DecimalScan :=
  match digit? c with
  | some digit =>
      if scan.pointSeen ∧ scan.places = counterLimit then .error (.trap .overflow)
      else
        .ok { scan with
          mantissa := (scan.mantissa.mul (.ofInt 10)).add (.ofInt digit)
          digits := scan.digits + 1
          places := if scan.pointSeen then scan.places + 1 else scan.places }
  | none =>
      if c = '.' then
        if scan.pointSeen then .error (malformed text .secondPoint)
        else .ok { scan with pointSeen := true }
      else if c = 'e' ∨ c = 'E' then .ok { scan with exponent := some ⟨false, 0, 0, true⟩ }
      else .error (malformed text .unexpectedCharacter)

def DecimalScan.step (text : List Char) (scan : DecimalScan) (c : Char) :
    Except Error DecimalScan :=
  match scan.exponent with
  | some exponent =>
      (exponent.step text c).map fun next => { scan with exponent := some next }
  | none => scan.stepMantissa text c

def DecimalScan.run (text : List Char) (scan : DecimalScan) : List Char → Except Error DecimalScan
  | [] => .ok scan
  | c :: rest =>
      match scan.step text c with
      | .error reason => .error reason
      | .ok next => next.run text rest

/-- The power of ten by which the mantissa is scaled, not below the least 32-bit integer. -/
def DecimalScan.scale (text : List Char) (scan : DecimalScan) : Except Error Int :=
  match scan.exponent with
  | none => .ok (-scan.places)
  | some exponent =>
      if exponent.digits = 0 then .error (malformed text .emptyExponent)
      else
        let power : Int := if exponent.negative then -exponent.magnitude else exponent.magnitude
        .ok (max (power - scan.places) (-counterLimit - 1))

/-- The least scale has no negation among the 32-bit integers. -/
def scaled (mantissa : Double) (scale : Int) : Except Error Double :=
  if scale = -counterLimit - 1 then .error (.trap .overflow)
  else if scale < 0 then .ok (mantissa.div (.tenPower scale.natAbs))
  else .ok (mantissa.mul (.tenPower scale.natAbs))

/-- An optional sign, digits with at most one point among them, and an optional exponent. -/
def readDecimal (text : List Char) : Except Error Double :=
  let (negative, body) := splitSign text
  match DecimalScan.start.run text body with
  | .error reason => .error reason
  | .ok scan =>
      if scan.digits = 0 then .error (malformed text .noDigits)
      else do
        let scale ← scan.scale text
        let magnitude ← scaled scan.mantissa scale
        .ok (if negative then magnitude.neg else magnitude)

end RowStore.Text
