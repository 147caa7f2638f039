import FortranMarkup.Number.Binary64

/-!
# Shortest decimals

The decimal with the fewest digits that reads back as a number in double precision; of the decimals
with so many digits, the nearest one. It is found on the grids of multiples of a power of ten, the
coarsest grid first: if any point of a grid reads back as the number, one of the number's two
neighbours on that grid does.
-/

namespace FortranMarkup

/-- Some digits times a power of ten. -/
structure Decimal where
  digits : Nat
  exponent : Int
deriving Repr, DecidableEq

namespace Binary64

/-- The number and the ends of the range that reads back as it, in quarters of the last place. The
range below a power of two is half as wide as the one above it. -/
structure Range where
  low : Nat
  value : Nat
  high : Nat
  /-- Whether the ends read back as the number. -/
  closed : Bool

/-- The range of a positive number. -/
def range (significand : Nat) (exponent : Int) : Range where
  low :=
    if significand = fullSignificand ∧ minExponent < exponent then 4 * significand - 1
    else 4 * significand - 2
  value := 4 * significand
  high := 4 * significand + 2
  closed := significand % 2 = 0

/-- Whether a point is in a range. -/
def Range.holds (range : Range) (scale point : Nat) : Bool :=
  if range.closed then range.low * scale ≤ point && point ≤ range.high * scale
  else range.low * scale < point && point < range.high * scale

/-- The neighbour on the grid of a power of ten that reads back as the number. Of two, it is the
nearer one; of two equally near, the greater one. -/
def onGrid? (significand : Nat) (exponent grid : Int) : Option Decimal :=
  let range := range significand exponent
  let (unitNum, unitDen) := powerRatio 2 (exponent - 2)
  let (gridNum, gridDen) := powerRatio 10 grid
  let scale := unitNum * gridDen
  let width := gridNum * unitDen
  let below := range.value * scale / width
  match range.holds scale (below * width), range.holds scale ((below + 1) * width) with
  | true, true =>
    if range.value * scale - below * width < (below + 1) * width - range.value * scale then
      some ⟨below, grid⟩
    else some ⟨below + 1, grid⟩
  | true, false => some ⟨below, grid⟩
  | false, true => some ⟨below + 1, grid⟩
  | false, false => none

/-- The coarsest grid on which a number can have a neighbour that reads back as it. -/
def coarsestGrid : Int := 309

/-- The shortest decimal of a number with a positive significand. -/
def shortest (significand : Nat) (exponent : Int) : Decimal :=
  ((List.range 700).findSome? (fun i : Nat => onGrid? significand exponent (coarsestGrid - i))).getD
    ⟨0, 0⟩

end Binary64

namespace Decimal

/-- A number of zeros. -/
def zeros (count : Nat) : String :=
  String.ofList (List.replicate count '0')

/-- A decimal without exponent, with at least one digit on each side of the point. -/
def positional (decimal : Decimal) : String :=
  let digits := Nat.toDigits 10 decimal.digits
  if 0 ≤ decimal.exponent then String.ofList digits ++ zeros decimal.exponent.toNat ++ ".0"
  else
    let places := (-decimal.exponent).toNat
    if places < digits.length then
      String.ofList (digits.take (digits.length - places)) ++ "." ++
        String.ofList (digits.drop (digits.length - places))
    else "0." ++ zeros (places - digits.length) ++ String.ofList digits

end Decimal

/-- A number in double precision without exponent, in the fewest digits that read back as it. -/
def Binary64.positional : Binary64 → String
  | .nan => "nan"
  | .infinite negative => if negative then "-inf" else "inf"
  | .finite negative significand exponent =>
    (if negative then "-" else "") ++
      (if significand = 0 then "0.0" else (Binary64.shortest significand exponent).positional)

end FortranMarkup
