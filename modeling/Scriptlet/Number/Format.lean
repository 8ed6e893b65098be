import Scriptlet.Number.Shortest

/-!
# Numbers as text

How scripts see a number, how a syntax tree shows a literal, and which texts stand for a
number.
-/

namespace Scriptlet
namespace Number

/-- Whether a number is shown with an exponent: from `10 ^ 21` on, and below `10 ^ -6`. -/
def hasExponent (x : Float) : Bool :=
  1e21 ≤ x.abs || x.abs < 1e-6

/-- The text of a number as scripts see it. Both zeros are `0`; very large and very small
numbers have an exponent with a sign. -/
def text (x : Float) : String :=
  match parts x with
  | .nan => "NaN"
  | .infinite negative => if negative then "-Infinity" else "Infinity"
  | .finite negative mantissa exponent =>
    if mantissa = 0 then "0"
    else
      let decimal := shortest mantissa exponent
      let magnitude := if hasExponent x then decimal.scientific else decimal.positional
      if negative then "-" ++ magnitude else magnitude

/-- The text of a number in a syntax tree: all places, never an exponent. -/
def literalText (x : Float) : String :=
  match parts x with
  | .nan => "NaN"
  | .infinite negative => if negative then "-inf" else "inf"
  | .finite negative mantissa exponent =>
    let magnitude :=
      if mantissa = 0 then "0" else (shortest mantissa exponent).positional
    if negative then "-" ++ magnitude else magnitude

/-- The words that stand for infinity and for no number, in any mix of cases. -/
def ofWord? (word : List Char) : Option Float :=
  let lower := word.map Char.toLower
  if lower = "inf".toList || lower = "infinity".toList then
    some (ofMagnitude false infinityBits)
  else if lower = "nan".toList then some nan
  else none

/-- Reads an unsigned number: a word or a decimal. -/
def ofUnsigned? (text : List Char) : Option Float :=
  (ofWord? text).or
    ((Decimal.read? text).map fun decimal => ofMagnitude false decimal.nearestBits)

/-- Reads a number that may have a sign. -/
def ofText? : List Char → Option Float
  | '-' :: rest => (ofUnsigned? rest).map Float.neg
  | '+' :: rest => ofUnsigned? rest
  | text => ofUnsigned? text

/-- `text` without the white space at its ends. -/
def trim (text : List Char) : List Char :=
  ((text.dropWhile Text.isWhiteSpace).reverse.dropWhile Text.isWhiteSpace).reverse

/-- The number that a text is compared as: blank text is zero, and text that reads as no
number is none. -/
def ofComparedText (text : String) : Float :=
  let trimmed := trim text.toList
  if trimmed.isEmpty then 0 else (ofText? trimmed).getD nan

end Number
end Scriptlet
