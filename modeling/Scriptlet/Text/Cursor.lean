/-!
# A cursor over a text

The cursor walks a text in both directions, one character at a time, and remembers one
earlier place, its mark. Places are byte offsets.
-/

namespace Scriptlet
namespace Text

/-- A place in a text, with a mark at an earlier or later place. -/
structure Cursor where
  text : String
  offset : Nat
  mark : Nat
  deriving Repr, DecidableEq

namespace Cursor

/-- A cursor before the first character, with the mark at the same place. -/
def ofText (text : String) : Cursor :=
  ⟨text, 0, 0⟩

/-- The character after the cursor. -/
def peek? (cursor : Cursor) : Option Char :=
  if cursor.offset < cursor.text.utf8ByteSize then
    some (String.Pos.Raw.get cursor.text ⟨cursor.offset⟩)
  else
    none

/-- Steps over the character after the cursor. -/
def next (cursor : Cursor) : Cursor :=
  match cursor.peek? with
  | some char => { cursor with offset := cursor.offset + char.utf8Size }
  | none => cursor

/-- Steps back over the character before the cursor, if there is one. -/
def back (cursor : Cursor) : Cursor :=
  { cursor with offset := (String.Pos.Raw.prev cursor.text ⟨cursor.offset⟩).byteIdx }

/-- Puts the mark where the cursor stands. -/
def setMark (cursor : Cursor) : Cursor :=
  { cursor with mark := cursor.offset }

/-- The text between the mark and the cursor, unless the mark is after the cursor. -/
def slice? (cursor : Cursor) : Option String :=
  if cursor.mark ≤ cursor.offset then
    some (String.Pos.Raw.extract cursor.text ⟨cursor.mark⟩ ⟨cursor.offset⟩)
  else
    none

end Cursor
end Text
end Scriptlet
