import Scriptlet.Text.Utf8

/-!
# Lines and columns

A byte offset in a text as a line and a column, both counted from one. Lines end at a
line feed; columns count characters.
-/

namespace Scriptlet
namespace Text

/-- A place in a text, counted from line 1, column 1. -/
structure Position where
  line : Nat
  column : Nat
  deriving Repr, DecidableEq

namespace Position

/-- The place where a text begins. -/
def start : Position := ⟨1, 1⟩

/-- The place after `char`, when `char` stands at this place. -/
def after (position : Position) (char : Char) : Position :=
  if char = '\n' then ⟨position.line + 1, 1⟩ else ⟨position.line, position.column + 1⟩

/-- The place that is `offset` bytes further on. An offset past the end stands for the
end; an offset inside a character has no place. -/
def advance? (position : Position) : List Char → Nat → Option Position
  | _, 0 => some position
  | [], _ + 1 => some position
  | char :: rest, offset + 1 =>
    if char.utf8Size ≤ offset + 1 then
      (position.after char).advance? rest (offset + 1 - char.utf8Size)
    else
      none

/-- The place of a byte offset in `text`. -/
def ofOffset? (text : String) (offset : Nat) : Option Position :=
  start.advance? text.toList offset

end Position
end Text
end Scriptlet
