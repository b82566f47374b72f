import BeamScope.Binary64

/-!
# Decimals with fixed places

A floating-point number rounded to a number of decimal places, from its exact value, a half going
to the even neighbour.
-/

namespace BeamScope.Decimal

/-- A whole number of units of `10 ^ -places`, written with its point. -/
def unitsText (places units : Nat) : String :=
  let digits := Nat.toDigits 10 units
  let padded := List.replicate (places + 1 - digits.length) '0' ++ digits
  let whole := padded.length - places
  String.ofList (padded.take whole ++ (if places = 0 then [] else '.' :: padded.drop whole))

def fixed (places : Nat) (bits : UInt64) : String :=
  match Binary64.parts bits with
  | .nan => "NaN"
  | .infinite negative => if negative then "-inf" else "inf"
  | .finite negative m e =>
    let units :=
      if 0 ≤ e then m * 2 ^ e.toNat * 10 ^ places
      else Binary64.roundHalfEven (m * 10 ^ places) (2 ^ (-e).toNat)
    if negative then "-" ++ unitsText places units else unitsText places units

end BeamScope.Decimal
