import Scriptlet.Text.Class.Alphabetic
import Scriptlet.Text.Class.Extender
import Scriptlet.Text.Class.Numeric
import Scriptlet.Text.Class.Unprintable

/-!
# Character classes

The classes that scripts are scanned with and that quoted text is written by.
ASCII characters are decided without a table.
-/

namespace Scriptlet
namespace Text

/-- Ranges of the Unicode property White_Space. -/
def whiteSpaceRanges : Ranges := #[
  (0x9, 0xD), (0x20, 0x20), (0x85, 0x85), (0xA0, 0xA0), (0x1680, 0x1680),
  (0x2000, 0x200A), (0x2028, 0x2029), (0x202F, 0x202F), (0x205F, 0x205F), (0x3000, 0x3000)]

/-- White space: what separates tokens, and what is trimmed from text that is read as
a number. -/
def isWhiteSpace (char : Char) : Bool :=
  whiteSpaceRanges.contains char

/-- Letters, and the marks and numbers that count as letters. -/
def isAlphabetic (char : Char) : Bool :=
  if char.toNat < 0x80 then char.isAlpha else alphabeticRanges.contains char

/-- Letters and numbers of every kind. -/
def isAlphanumeric (char : Char) : Bool :=
  if char.toNat < 0x80 then char.isAlphanum
  else alphabeticRanges.contains char || numericRanges.contains char

/-- Marks that join the character before them. -/
def isExtender (char : Char) : Bool :=
  if char.toNat < 0x80 then false else extenderRanges.contains char

/-- Characters that quoted text can show as they are. -/
def isPrintable (char : Char) : Bool :=
  if char.toNat < 0x80 then 0x20 ≤ char.toNat && char.toNat < 0x7F
  else !unprintableRanges.contains char

/-- The decimal digits `0` to `9`, the only digits of a number. -/
def isDigit (char : Char) : Bool :=
  char.isDigit

end Text
end Scriptlet
