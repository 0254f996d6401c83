import RowStore.Decimal.Fixed
import RowStore.Fault

/-! Sizes, ratios and table cells as commands show them. -/

namespace RowStore.Measure

/-- The power of 1024 by which a size is divided: the greatest that leaves at least one, up to the
fourth. -/
def power (size : Nat) : (tries : Nat) → Nat
  | 0 => 0
  | tries + 1 => if size < 1024 then 0 else power (size / 1024) tries + 1

def unit (power : Nat) : String := ["B", "KB", "MB", "GB", "TB"].getD power "TB"

/-- A count of bytes. From 1024 on it is rounded to a double and shown with two places. -/
def size (count : Nat) : String :=
  let nearest := ((Double.ofInt count).toInt?.getD 0).toNat
  let power := power nearest 4
  if power = 0 then s!"{count} B"
  else Decimal.withPlaces 2 (roundDiv (100 * nearest) (1 <<< (10 * power))) ++ " " ++ unit power

def ratio (value : Double) : String := Decimal.hundredths value ++ "x"

/-- Fill up with blanks behind the text. -/
def left (width : Nat) (text : String) : String :=
  text ++ String.ofList (List.replicate (width - text.length) ' ')

/-- Fill up with blanks before the text. -/
def right (width : Nat) (text : String) : String :=
  String.ofList (List.replicate (width - text.length) ' ') ++ text

def rule (width : Nat) : String := String.ofList (List.replicate width '-')

end RowStore.Measure
