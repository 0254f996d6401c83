import RowStore.Number.Binary

/-! Numbers with a fixed count of decimal places, rounded from their exact value. -/

namespace RowStore.Decimal

/-- The text of `units` hundredths, and so on for other counts of places. -/
def withPlaces (places units : Nat) : String :=
  let digits := Nat.toDigits 10 units
  let padded := List.replicate (places + 1 - digits.length) '0' ++ digits
  String.ofList (padded.take (padded.length - places) ++ '.' :: padded.drop (padded.length - places))

/-- A double with two decimal places. -/
def hundredths (value : Double) : String :=
  match value.datum with
  | .finite negative mantissa scale =>
      (if negative then "-" else "") ++
        withPlaces 2 (roundDiv ((100 * mantissa) <<< scale.toNat) (1 <<< (-scale).toNat))
  | .infinite negative => if negative then "-inf" else "inf"
  | .nan _ _ => "NaN"

end RowStore.Decimal
