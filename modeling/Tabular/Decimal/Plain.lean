import Tabular.Decimal.Shortest

/-!
Numbers written out in full: digits and a point, never an exponent.
-/
namespace Tabular.Decimal

/-- A decimal without an exponent. A point stands only between digits. -/
def Scaled.plain (d : Scaled) : String :=
  let digits := toString d.digits
  if 0 ≤ d.exponent then digits ++ String.ofList (List.replicate d.exponent.toNat '0')
  else
    let places := (-d.exponent).toNat
    let padded := List.replicate (places + 1 - digits.length) '0' ++ digits.toList
    let whole := padded.length - places
    String.ofList (padded.take whole ++ '.' :: padded.drop whole)

def sign (negative : Bool) : String := if negative then "-" else ""

/-- A binary number in the fewest digits that read back as it. A zero keeps its sign. -/
def Binary64.plain : Binary64 → String
  | .nan => "NaN"
  | .infinite negative => sign negative ++ "inf"
  | .zero negative => sign negative ++ "0"
  | .finite negative mantissa exponent lowest =>
      sign negative ++ (shortest mantissa exponent lowest).plain

end Tabular.Decimal
