import Scriptlet.Number.Binary64

/-!
# Arithmetic beyond the basic operations

Remainders, power, integer part and reduction to words of 32 bits.
-/

namespace Scriptlet
namespace Number

/-- The remainder of a division with the quotient rounded toward zero. It has the sign of
the dividend and is exact. -/
def remainder (dividend divisor : Float) : Float :=
  match parts dividend, parts divisor with
  | .nan, _ | _, .nan | .infinite _, _ => nan
  | .finite .., .infinite _ => dividend
  | .finite negative mantissa exponent, .finite _ mantissa₂ exponent₂ =>
    if mantissa₂ = 0 then nan
    else
      let least := min exponent exponent₂
      let rest := mantissa * Nat.pow 2 (exponent - least).toNat %
        (mantissa₂ * Nat.pow 2 (exponent₂ - least).toNat)
      ofMagnitude negative (scaledBits rest least)

/-- `base` to the power of `exponent`; an exponent that is no number gives no number, even
for a base of one. -/
def power (base exponent : Float) : Float :=
  if exponent.isNaN then nan else base.pow exponent

/-- The integer part of a number, rounded toward zero. -/
def trunc (x : Float) : Float :=
  match parts x with
  | .finite negative mantissa exponent =>
    if 0 ≤ exponent then x
    else ofMagnitude negative (nearestBits (mantissa / Nat.pow 2 (-exponent).toNat) 1)
  | _ => x

/-- The remainder that is not negative: a negative one is moved up by the size of the
divisor. -/
def euclideanRemainder (dividend divisor : Float) : Float :=
  let rest := remainder dividend divisor
  if rest < 0 then rest + divisor.abs else rest

/-- `2 ^ 32`. -/
def wordModulus : Float := 4294967296

/-- The integer part of a number modulo `2 ^ 32`. Numbers that are not finite give zero. The
conversion at the end saturates. -/
def toWord (x : Float) : UInt32 :=
  if x.isFinite then (euclideanRemainder (trunc x) wordModulus).toUInt32 else 0

/-- The same as a signed word, from `-2 ^ 31` up to `2 ^ 31 - 1`. -/
def toSignedWord (x : Float) : Int32 :=
  (toWord x).toInt32

/-- The number of an integer that is small enough to be exact. -/
def ofInt (value : Int) : Float :=
  ofMagnitude (value < 0) (nearestBits value.natAbs 1)

end Number
end Scriptlet
