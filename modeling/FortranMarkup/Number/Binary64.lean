/-!
# Double precision

A `Binary64` is a number as double precision holds it, and `ofDecimal` the one nearest to a decimal.
All arithmetic is exact, on natural numbers.
-/

namespace FortranMarkup

/-- A number in double precision. A finite one is its significand, which takes at most 53 bits,
times a power of two. -/
inductive Binary64 where
  | finite (negative : Bool) (significand : Nat) (exponent : Int)
  | infinite (negative : Bool)
  | nan
deriving Repr, DecidableEq

/-- The whole number nearest to a quotient; of two equally near ones, the even one. -/
def roundQuotient (num den : Nat) : Nat :=
  let quotient := num / den
  let twice := 2 * (num % den)
  if twice < den then quotient
  else if den < twice then quotient + 1
  else quotient + quotient % 2

/-- A positive integer power of a base, or its reciprocal, as a numerator and a denominator. -/
def powerRatio (base : Nat) (exponent : Int) : Nat × Nat :=
  if 0 ≤ exponent then (Nat.pow base exponent.toNat, 1) else (1, Nat.pow base (-exponent).toNat)

namespace Binary64

/-- The least significand of 53 bits. -/
def fullSignificand : Nat := 0x10000000000000

/-- The least exponent of a finite number. -/
def minExponent : Int := -1074

/-- The greatest exponent of a finite number. -/
def maxExponent : Int := 971

/-- The exponent of the greatest power of two that is not above a quotient. -/
def floorLog2 (num den : Nat) : Int :=
  let estimate : Int := (num.log2 : Int) - den.log2
  let (above, below) := powerRatio 2 estimate
  if den * above ≤ num * below then estimate else estimate - 1

/-- The number nearest to a positive quotient. -/
def ofQuotient (negative : Bool) (num den : Nat) : Binary64 :=
  let exponent := max minExponent (floorLog2 num den - 52)
  let (above, below) := powerRatio 2 exponent
  let significand := roundQuotient (num * below) (den * above)
  let (significand, exponent) :=
    if significand = 2 * fullSignificand then (fullSignificand, exponent + 1)
    else (significand, exponent)
  if maxExponent < exponent then infinite negative else finite negative significand exponent

/-- The number nearest to `digits` times a power of ten. Powers that are far out of range are not
computed. -/
def ofDecimal (negative : Bool) (digits : Nat) (exponent : Int) : Binary64 :=
  let magnitude := (Nat.toDigits 10 digits).length + exponent
  if digits = 0 ∨ magnitude < -330 then finite negative 0 minExponent
  else if 310 < magnitude then infinite negative
  else
    let (above, below) := powerRatio 10 exponent
    ofQuotient negative (digits * above) below

end Binary64

end FortranMarkup
