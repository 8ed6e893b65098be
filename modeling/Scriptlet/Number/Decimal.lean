import Scriptlet.Number.Binary64
import Scriptlet.Number.Digits
import Scriptlet.Text.Class

/-!
# Decimals

A decimal is `digits · 10 ^ exponent`. It is read from text, rounded to the nearest
number, and written with all places or with an exponent.
-/

namespace Scriptlet
namespace Number

/-- The decimal `digits · 10 ^ exponent`. -/
structure Decimal where
  digits : Nat
  exponent : Int
  deriving Repr, DecidableEq

namespace Decimal

/-! ## The nearest number -/

/-- The bits of the number nearest to a decimal. Far outside the range of the exponents
the power of ten is not computed: the result is infinity or zero. -/
def nearestBits (decimal : Decimal) : Nat :=
  if decimal.digits = 0 then 0
  else if 310 < decimal.exponent then infinityBits
  else if decimal.exponent + Int.ofNat decimal.digits.log2 + 331 < 0 then 0
  else if 0 ≤ decimal.exponent then
    Number.nearestBits (decimal.digits * Nat.pow 10 decimal.exponent.toNat) 1
  else
    Number.nearestBits decimal.digits (Nat.pow 10 (-decimal.exponent).toNat)

/-! ## Reading -/

/-- The value of a decimal digit. -/
def digitValue (digit : Char) : Nat :=
  digit.toNat - '0'.toNat

/-- The value of a list of decimal digits, the highest place first. -/
def digitsValue (digits : List Char) : Nat :=
  joinedValue digits.length.log2 10 (digits.reverse.map digitValue)

/-- An exponent that has come this far, to `2 ^ 16`, is not read further. -/
def exponentBound : Nat := 65536

/-- The value of the digits of an exponent. Digits after those that reach `exponentBound`
are ignored. -/
def exponentValue (digits : List Char) : Nat :=
  digits.foldl
    (fun value digit => if value < exponentBound then 10 * value + digitValue digit else value)
    0

/-- Reads one or more digits of an exponent that take up the whole text. -/
def readExponentDigits? (text : List Char) : Option Nat :=
  if text.isEmpty || !text.all Text.isDigit then none else some (exponentValue text)

/-- Reads nothing, or `e` or `E` with a whole number that may have a sign. -/
def readExponent? : List Char → Option Int
  | [] => some 0
  | mark :: text =>
    if mark == 'e' || mark == 'E' then
      match text with
      | '-' :: digits => (readExponentDigits? digits).map fun value => -(Int.ofNat value)
      | '+' :: digits => (readExponentDigits? digits).map Int.ofNat
      | digits => (readExponentDigits? digits).map Int.ofNat
    else
      none

/-- Splits off a point with the digits after it. -/
def splitFraction : List Char → List Char × List Char
  | '.' :: rest => (rest.takeWhile Text.isDigit, rest.dropWhile Text.isDigit)
  | rest => ([], rest)

/-- Reads digits with an optional point and an optional exponent. There is a digit
before or after the point. -/
def read? (text : List Char) : Option Decimal :=
  let whole := text.takeWhile Text.isDigit
  let (fraction, rest) := splitFraction (text.dropWhile Text.isDigit)
  if whole.isEmpty && fraction.isEmpty then none
  else
    (readExponent? rest).map fun exponent =>
      ⟨digitsValue (whole ++ fraction), exponent - Int.ofNat fraction.length⟩

/-! ## Writing -/

/-- The digits as text. -/
def digitText (decimal : Decimal) : List Char :=
  Nat.toDigits 10 decimal.digits

/-- How many digits stand before the point when all places are written. -/
def pointPlace (decimal : Decimal) : Int :=
  Int.ofNat decimal.digitText.length + decimal.exponent

/-- Every place written out, without an exponent. -/
def positional (decimal : Decimal) : String :=
  let text := decimal.digitText
  let place := decimal.pointPlace
  if 0 ≤ decimal.exponent then
    String.ofList (text ++ List.replicate decimal.exponent.toNat '0')
  else if 0 < place then
    String.ofList (text.take place.toNat ++ '.' :: text.drop place.toNat)
  else
    String.ofList ('0' :: '.' :: List.replicate (-place).toNat '0' ++ text)

/-- One digit before the point, and an exponent with its sign. -/
def scientific (decimal : Decimal) : String :=
  let exponent := decimal.pointPlace - 1
  let mantissa := match decimal.digitText with
    | first :: second :: rest => first :: '.' :: second :: rest
    | digits => digits
  let sign := if exponent < 0 then '-' else '+'
  String.ofList (mantissa ++ 'e' :: sign :: Nat.toDigits 10 exponent.natAbs)

end Decimal
end Number
end Scriptlet
