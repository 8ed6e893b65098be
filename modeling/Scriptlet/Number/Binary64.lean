/-!
# Binary64 numbers taken apart and put together

A finite number is `± mantissa · 2 ^ exponent`. `parts` reads mantissa and exponent off
the bits; `nearestBits` gives the bits of the number that is nearest to a quotient of
naturals, a tie going to the even mantissa.
-/

namespace Scriptlet
namespace Number

/-- A number by what its bits stand for. A finite number is
`± mantissa · 2 ^ exponent`. -/
inductive Parts where
  | nan
  | infinite (negative : Bool)
  | finite (negative : Bool) (mantissa : Nat) (exponent : Int)
  deriving Repr, DecidableEq

/-- Bits of infinity, and the first that stand for no finite number. -/
def infinityBits : Nat := 2047 * Nat.pow 2 52

/-- Reads sign, mantissa and exponent off the bits. -/
def partsOfBits (bits : Nat) : Parts :=
  let negative := bits / Nat.pow 2 63 % 2 == 1
  let field := bits / Nat.pow 2 52 % Nat.pow 2 11
  let fraction := bits % Nat.pow 2 52
  if field = 2047 then
    if fraction = 0 then .infinite negative else .nan
  else if field = 0 then
    .finite negative fraction (-1074)
  else
    .finite negative (Nat.pow 2 52 + fraction) (Int.ofNat field - 1075)

/-- What a number stands for. -/
def parts (x : Float) : Parts :=
  partsOfBits x.toBits.toNat

/-- The number with the given sign and the bits of its absolute value. -/
def ofMagnitude (negative : Bool) (bits : Nat) : Float :=
  Float.ofBits (UInt64.ofNat (if negative then Nat.pow 2 63 + bits else bits))

/-- The number that is no number. -/
def nan : Float := Float.ofBits 0x7FF8000000000000

/-- The numerator and denominator of `num / den / 2 ^ exponent`. -/
def scaleBinary (num den : Nat) (exponent : Int) : Nat × Nat :=
  if 0 ≤ exponent then (num, den * Nat.pow 2 exponent.toNat)
  else (num * Nat.pow 2 (-exponent).toNat, den)

/-- `num / den` rounded to a natural number, a tie going to the even one. -/
def roundQuotient (num den : Nat) : Nat :=
  let quotient := num / den
  let twice := 2 * (num % den)
  if den < twice || (twice == den && quotient % 2 == 1) then quotient + 1 else quotient

/-- The exponent at which `num / den` has a mantissa of 53 bits, but never one below the
smallest exponent. -/
def targetExponent (num den : Nat) : Int :=
  let estimate := Int.ofNat num.log2 - Int.ofNat den.log2 - 52
  let scaled := scaleBinary num den estimate
  max (-1074) (if scaled.1 / scaled.2 < Nat.pow 2 52 then estimate - 1 else estimate)

/-- The bits of the number nearest to `num / den`, infinity if that is too large. -/
def nearestBits (num den : Nat) : Nat :=
  if num = 0 then 0
  else
    let exponent := targetExponent num den
    let scaled := scaleBinary num den exponent
    min infinityBits ((exponent + 1074).toNat * Nat.pow 2 52 + roundQuotient scaled.1 scaled.2)

/-- The bits of `mantissa · 2 ^ exponent`. -/
def scaledBits (mantissa : Nat) (exponent : Int) : Nat :=
  if 0 ≤ exponent then nearestBits (mantissa * Nat.pow 2 exponent.toNat) 1
  else nearestBits mantissa (Nat.pow 2 (-exponent).toNat)

end Number
end Scriptlet
