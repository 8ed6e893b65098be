/-!
# Character ranges

A character class is a table of closed code point ranges in ascending order.
-/

namespace Scriptlet
namespace Text

/-- A character class as closed ranges of code points, in ascending order. -/
abbrev Ranges := Array (Nat × Nat)

/-- Whether the code point of `char` lies in one of the ranges. -/
def Ranges.contains (ranges : Ranges) (char : Char) : Bool :=
  ranges.any fun range => range.1 ≤ char.toNat && char.toNat ≤ range.2

end Text
end Scriptlet
