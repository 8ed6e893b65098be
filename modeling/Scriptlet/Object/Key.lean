import Scriptlet.Number.Decimal

/-!
# Property keys

A key is an index if it is written like one: in decimal, without sign or leading zero, and
below `2 ^ 32 - 1`. Every other key is a name.
-/

namespace Scriptlet

/-- A property key by its shape. -/
inductive Key where
  | index (value : Nat)
  | name (text : String)
  deriving Repr, DecidableEq

namespace Key

/-- Indices are below this bound, `2 ^ 32 - 1`. -/
def indexBound : Nat := 4294967295

/-- Whether the characters are the decimal digits of a number without leading zero. -/
def isCanonical : List Char → Bool
  | [] => false
  | ['0'] => true
  | first :: rest => first != '0' && (first :: rest).all Text.isDigit

/-- The shape of a key. -/
def ofText (text : String) : Key :=
  let chars := text.toList
  if isCanonical chars && Number.Decimal.digitsValue chars < indexBound then
    .index (Number.Decimal.digitsValue chars)
  else
    .name text

/-- A key as text. -/
def text : Key → String
  | .index value => toString value
  | .name text => text

end Key
end Scriptlet
