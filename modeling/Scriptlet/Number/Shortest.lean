import Scriptlet.Number.Decimal

/-!
# The shortest decimal of a number

The shortest decimal of a number is found on the coarsest grid of multiples of a power of
ten that has a point which reads back as the number. Of two such points the nearer one is
taken, and the larger one of two that are equally near.
-/

namespace Scriptlet
namespace Number

/-- The numerator and denominator of `mantissa · 2 ^ exponent`. -/
def fraction (mantissa : Nat) (exponent : Int) : Nat × Nat :=
  if 0 ≤ exponent then (mantissa * Nat.pow 2 exponent.toNat, 1)
  else (mantissa, Nat.pow 2 (-exponent).toNat)

/-- The numerator and denominator of `num / den / 10 ^ power`. -/
def scaleDecimal (num den : Nat) (power : Int) : Nat × Nat :=
  if 0 ≤ power then (num, den * Nat.pow 10 power.toNat)
  else (num * Nat.pow 10 (-power).toNat, den)

/-- The multiple of `10 ^ power` that reads back as the number with these bits, which is
`num / den`. -/
def onGrid? (bits num den : Nat) (power : Int) : Option Decimal :=
  let scaled := scaleDecimal num den power
  let below : Decimal := ⟨scaled.1 / scaled.2, power⟩
  let above : Decimal := ⟨scaled.1 / scaled.2 + 1, power⟩
  let nearer := if 2 * (scaled.1 % scaled.2) < scaled.2 then below else above
  let farther := if 2 * (scaled.1 % scaled.2) < scaled.2 then above else below
  if nearer.nearestBits = bits then some nearer
  else if farther.nearestBits = bits then some farther
  else none

/-- `mantissa · 2 ^ exponent` with every digit. -/
def exactDecimal (mantissa : Nat) (exponent : Int) : Decimal :=
  if 0 ≤ exponent then ⟨mantissa * Nat.pow 2 exponent.toNat, 0⟩
  else ⟨mantissa * Nat.pow 5 (-exponent).toNat, exponent⟩

/-- Looks for the coarsest grid from `power` downwards, on at most `grids` of them. -/
def searchGrids (bits mantissa : Nat) (exponent power : Int) : Nat → Decimal
  | 0 => exactDecimal mantissa exponent
  | grids + 1 =>
    let value := fraction mantissa exponent
    match onGrid? bits value.1 value.2 power with
    | some decimal => decimal
    | none => searchGrids bits mantissa exponent (power - 1) grids

/-- A power of ten above `mantissa · 2 ^ exponent`: three tenths are a little less than
the decimal logarithm of two. -/
def powerAbove (mantissa : Nat) (exponent : Int) : Int :=
  (Int.ofNat mantissa.log2 + exponent + 1) * 3 / 10 + 2

/-- The shortest decimal that reads back as `mantissa · 2 ^ exponent`. Seventeen digits
suffice, so that the grids do. -/
def shortest (mantissa : Nat) (exponent : Int) : Decimal :=
  searchGrids (scaledBits mantissa exponent) mantissa exponent
    (powerAbove mantissa exponent) 30

end Number
end Scriptlet
