import Scriptlet.Text.Class

/-!
# Quoted text

Text between quotes, with escapes for the quote, the backslash, the common controls and
every character that cannot be shown by itself.
-/

namespace Scriptlet
namespace Text

/-- A code point as `\u` with its hexadecimal digits in braces. -/
def escapeCodePoint (char : Char) : String :=
  "\\u\x7b" ++ String.ofList (Nat.toDigits 16 char.toNat) ++ "\x7d"

/-- `char` inside quotes of the kind `quote`. -/
def escape (quote char : Char) : String :=
  if char = Char.ofNat 0 then "\\0"
  else if char = '\t' then "\\t"
  else if char = '\r' then "\\r"
  else if char = '\n' then "\\n"
  else if char = '\\' || char = quote then "\\" ++ char.toString
  else if isExtender char || !isPrintable char then escapeCodePoint char
  else char.toString

/-- `text` between double quotes. -/
def quoted (text : String) : String :=
  "\"" ++ String.join (text.toList.map (escape '"')) ++ "\""

/-- `char` between single quotes. -/
def quotedChar (char : Char) : String :=
  "'" ++ escape '\'' char ++ "'"

end Text
end Scriptlet
