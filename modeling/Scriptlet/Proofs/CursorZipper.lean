import Mathlib.Data.String.Basic
import Scriptlet.Text.Cursor
import Scriptlet.Text.Utf8

/-!
# The cursor as a zipper

A cursor keeps byte offsets into a text; a zipper keeps the characters on both sides of a place.
Whatever steps are taken on them from the beginning of a text, both give the same answers, and the
offsets of the cursor are the byte lengths of what the zipper has before its place and its mark.

* `Refines`: what a cursor and a zipper have in common;
* `Refines.step`: every step keeps that, with the same answer;
* `Refines.run`: so does every sequence of steps.
-/

namespace Scriptlet
namespace Text

/-! ## Zippers -/

/-- A place in a text, by the characters on both sides of it, with a mark at another place. -/
structure Zipper where
  /-- The characters before the place, the nearest one first. -/
  before : List Char
  after : List Char
  /-- How many characters stand before the mark. -/
  mark : ℕ

namespace Zipper

/-- A zipper before the first character, with the mark at the same place. -/
def ofText (text : String) : Zipper :=
  ⟨[], text.toList, 0⟩

/-- All characters of the text. -/
def chars (zipper : Zipper) : List Char :=
  zipper.before.reverse ++ zipper.after

def next : Zipper → Zipper
  | ⟨before, char :: after, mark⟩ => ⟨char :: before, after, mark⟩
  | zipper => zipper

def back : Zipper → Zipper
  | ⟨char :: before, after, mark⟩ => ⟨before, char :: after, mark⟩
  | zipper => zipper

def setMark (zipper : Zipper) : Zipper :=
  { zipper with mark := zipper.before.length }

/-- The characters between the mark and the place, unless the mark is after the place. -/
def slice? (zipper : Zipper) : Option (List Char) :=
  if zipper.mark ≤ zipper.before.length then some (zipper.before.reverse.drop zipper.mark)
  else none

end Zipper

/-! ## Steps -/

/-- What is done with a cursor. -/
inductive Step where
  | next
  | peek
  | back
  | mark
  | slice
  deriving Repr, DecidableEq

/-- What a step answers. -/
inductive Answer where
  | nothing
  /-- The character after the cursor, if there is one. -/
  | char (char? : Option Char)
  /-- The text after the mark, unless that fails. -/
  | text (text? : Option String)
  deriving Repr, DecidableEq

/-- The answer of a cursor to a step, and the cursor after it. -/
def Cursor.step (cursor : Cursor) : Step → Answer × Cursor
  | .next => (.char cursor.peek?, cursor.next)
  | .peek => (.char cursor.peek?, cursor)
  | .back => (.nothing, cursor.back)
  | .mark => (.nothing, cursor.setMark)
  | .slice => (.text cursor.slice?, cursor)

/-- The answer of a zipper to a step, and the zipper after it. -/
def Zipper.step (zipper : Zipper) : Step → Answer × Zipper
  | .next => (.char zipper.after.head?, zipper.next)
  | .peek => (.char zipper.after.head?, zipper)
  | .back => (.nothing, zipper.back)
  | .mark => (.nothing, zipper.setMark)
  | .slice => (.text (zipper.slice?.map String.ofList), zipper)

/-- The answers to steps one after the other, and what is left at the end. -/
def runSteps {σ : Type} (step : σ → Step → Answer × σ) : σ → List Step → List Answer × σ
  | state, [] => ([], state)
  | state, first :: steps =>
    let (answer, state) := step state first
    let (answers, state) := runSteps step state steps
    (answer :: answers, state)

/-! ## Byte lengths -/

theorem byteLength_eq_utf8Len (chars : List Char) : byteLength chars = String.utf8Len chars := by
  rw [byteLength_eq, String.utf8ByteSize_ofList]

/-- More characters of a text take more bytes. -/
theorem byteLength_take_lt {chars : List Char} {few many : ℕ} (fewer : few < many)
    (within : many ≤ chars.length) :
    byteLength (chars.take few) < byteLength (chars.take many) := by
  obtain ⟨more, rfl⟩ := Nat.exists_eq_add_of_lt fewer
  rw [Nat.add_assoc, List.take_add, byteLength_append]
  refine Nat.lt_add_of_pos_right (byteLength_pos ?_)
  rw [← List.length_pos_iff, List.length_take, List.length_drop]
  omega

theorem byteLength_take_le_iff {chars : List Char} {few many : ℕ} (few_le : few ≤ chars.length)
    (many_le : many ≤ chars.length) :
    byteLength (chars.take few) ≤ byteLength (chars.take many) ↔ few ≤ many := by
  constructor
  · intro le
    by_contra more
    exact absurd (byteLength_take_lt (Nat.lt_of_not_le more) few_le) (Nat.not_lt.mpr le)
  · intro le
    rcases Nat.eq_or_lt_of_le le with rfl | fewer
    · exact le_rfl
    · exact (byteLength_take_lt fewer many_le).le

/-! ## Refinement -/

/-- The offsets of the cursor are the byte lengths of what the zipper has before its place and
its mark. -/
structure Refines (text : String) (cursor : Cursor) (zipper : Zipper) : Prop where
  sameText : cursor.text = text
  chars : zipper.chars = text.toList
  offset : cursor.offset = byteLength zipper.before.reverse
  mark : cursor.mark = byteLength (text.toList.take zipper.mark)
  within : zipper.mark ≤ text.toList.length

namespace Refines

variable {text : String} {cursor cursor' : Cursor} {zipper : Zipper}

/-- The zipper determines the cursor. -/
theorem unique (refines : Refines text cursor zipper) (refines' : Refines text cursor' zipper) :
    cursor = cursor' := by
  obtain ⟨_, _, _⟩ := cursor
  obtain ⟨_, _, _⟩ := cursor'
  rw [Cursor.mk.injEq]
  exact ⟨refines.sameText.trans refines'.sameText.symm,
    refines.offset.trans refines'.offset.symm, refines.mark.trans refines'.mark.symm⟩

theorem ofText (text : String) : Refines text (.ofText text) (.ofText text) :=
  ⟨rfl, rfl, rfl, rfl, Nat.zero_le _⟩

/-- The text, cut where the zipper stands. -/
theorem text_eq (refines : Refines text cursor zipper) :
    cursor.text = String.ofList (zipper.before.reverse ++ zipper.after) := by
  rw [refines.sameText, ← String.ofList_toList (s := text), ← refines.chars]
  rfl

theorem take_length_before (refines : Refines text cursor zipper) :
    text.toList.take zipper.before.length = zipper.before.reverse := by
  rw [← refines.chars, Zipper.chars]
  exact List.take_left' (List.length_reverse ..)

theorem length_before_le (refines : Refines text cursor zipper) :
    zipper.before.length ≤ text.toList.length := by
  rw [← refines.chars, Zipper.chars, List.length_append, List.length_reverse]
  exact Nat.le_add_right _ _

theorem utf8ByteSize_eq (refines : Refines text cursor zipper) :
    text.utf8ByteSize = cursor.offset + byteLength zipper.after := by
  rw [utf8ByteSize_eq_byteLength, ← refines.chars, Zipper.chars, byteLength_append, refines.offset]

theorem peek?_eq (refines : Refines text cursor zipper) : cursor.peek? = zipper.after.head? := by
  have size := refines.utf8ByteSize_eq
  rw [← refines.sameText] at size
  unfold Cursor.peek?
  cases after : zipper.after with
  | nil =>
    rw [after, byteLength_nil] at size
    rw [if_neg (by omega)]
    rfl
  | cons char rest =>
    have pos := byteLength_pos (List.cons_ne_nil char rest)
    rw [after] at size
    rw [if_pos (by omega), refines.text_eq, refines.offset, byteLength_eq_utf8Len, after,
      String.get_of_valid]
    rfl

theorem next (refines : Refines text cursor zipper) : Refines text cursor.next zipper.next := by
  have peeked := refines.peek?_eq
  obtain ⟨before, after, mark⟩ := zipper
  unfold Cursor.next
  rw [peeked]
  cases after with
  | nil => exact refines
  | cons char after =>
    obtain ⟨sameText, chars, offset, isMark, within⟩ := refines
    refine ⟨sameText, ?_, ?_, isMark, within⟩
    · rw [← chars]
      simp [Zipper.chars, Zipper.next]
    · simp [Zipper.next, offset]

theorem back (refines : Refines text cursor zipper) : Refines text cursor.back zipper.back := by
  have place : (String.Pos.Raw.prev cursor.text ⟨cursor.offset⟩).byteIdx =
      byteLength zipper.before.reverse.dropLast := by
    rw [refines.text_eq, refines.offset, byteLength_eq_utf8Len, String.prev_of_valid',
      byteLength_eq_utf8Len]
  obtain ⟨before, after, mark⟩ := zipper
  obtain ⟨sameText, chars, offset, isMark, within⟩ := refines
  cases before with
  | nil => exact ⟨sameText, chars, place, isMark, within⟩
  | cons char before =>
    refine ⟨sameText, ?_, ?_, isMark, within⟩
    · rw [← chars]
      simp [Zipper.chars, Zipper.back]
    · refine place.trans ?_
      simp [Zipper.back]

theorem setMark (refines : Refines text cursor zipper) :
    Refines text cursor.setMark zipper.setMark where
  sameText := refines.sameText
  chars := refines.chars
  offset := refines.offset
  mark := by
    show cursor.offset = byteLength (text.toList.take zipper.before.length)
    rw [refines.offset, refines.take_length_before]
  within := refines.length_before_le

theorem mark_le_offset_iff (refines : Refines text cursor zipper) :
    cursor.mark ≤ cursor.offset ↔ zipper.mark ≤ zipper.before.length := by
  rw [refines.mark, refines.offset, ← refines.take_length_before]
  exact byteLength_take_le_iff refines.within refines.length_before_le

theorem slice?_eq (refines : Refines text cursor zipper) :
    cursor.slice? = zipper.slice?.map String.ofList := by
  unfold Cursor.slice? Zipper.slice?
  by_cases before : zipper.mark ≤ zipper.before.length
  · have start : text.toList.take zipper.mark = zipper.before.reverse.take zipper.mark := by
      rw [← refines.take_length_before, List.take_take, Nat.min_eq_left before]
    have stop : cursor.offset = String.utf8Len (zipper.before.reverse.take zipper.mark) +
        String.utf8Len (zipper.before.reverse.drop zipper.mark) := by
      rw [← String.utf8Len_append, List.take_append_drop, ← byteLength_eq_utf8Len, refines.offset]
    have cut : zipper.before.reverse ++ zipper.after =
        zipper.before.reverse.take zipper.mark ++ zipper.before.reverse.drop zipper.mark ++
          zipper.after := by
      rw [List.take_append_drop]
    rw [if_pos before, if_pos (refines.mark_le_offset_iff.mpr before), refines.text_eq, cut,
      refines.mark, start, byteLength_eq_utf8Len, stop, String.extract_of_valid]
    rfl
  · rw [if_neg before, if_neg (refines.mark_le_offset_iff.not.mpr before)]
    rfl

/-- Every step is answered alike, and leads to a cursor and a zipper that belong together. -/
theorem step (refines : Refines text cursor zipper) (step : Step) :
    (cursor.step step).1 = (zipper.step step).1 ∧
      Refines text (cursor.step step).2 (zipper.step step).2 := by
  cases step with
  | next => exact ⟨congrArg _ refines.peek?_eq, refines.next⟩
  | peek => exact ⟨congrArg _ refines.peek?_eq, refines⟩
  | back => exact ⟨rfl, refines.back⟩
  | mark => exact ⟨rfl, refines.setMark⟩
  | slice => exact ⟨congrArg _ refines.slice?_eq, refines⟩

theorem run (refines : Refines text cursor zipper) (steps : List Step) :
    (runSteps Cursor.step cursor steps).1 = (runSteps Zipper.step zipper steps).1 ∧
      Refines text (runSteps Cursor.step cursor steps).2 (runSteps Zipper.step zipper steps).2 := by
  induction steps generalizing cursor zipper with
  | nil => exact ⟨rfl, refines⟩
  | cons first steps ih =>
    obtain ⟨answer, after⟩ := refines.step first
    obtain ⟨answers, ended⟩ := ih after
    exact ⟨congrArg₂ List.cons answer answers, ended⟩

theorem isValid_offset (refines : Refines text cursor zipper) :
    String.Pos.Raw.IsValid text ⟨cursor.offset⟩ := by
  rw [String.Pos.Raw.isValid_iff_exists_take_toList]
  refine ⟨zipper.before.length, ?_⟩
  rw [refines.take_length_before, String.utf8ByteSize_ofList, ← byteLength_eq_utf8Len]
  exact refines.offset

theorem isValid_mark (refines : Refines text cursor zipper) :
    String.Pos.Raw.IsValid text ⟨cursor.mark⟩ := by
  rw [String.Pos.Raw.isValid_iff_exists_take_toList]
  refine ⟨zipper.mark, ?_⟩
  rw [String.utf8ByteSize_ofList, ← byteLength_eq_utf8Len]
  exact refines.mark

/-- Away from the end, a step back undoes a step. -/
theorem next_back (refines : Refines text cursor zipper)
    (inside : cursor.offset < text.utf8ByteSize) : cursor.next.back = cursor := by
  have after := refines.next.back
  rw [refines.utf8ByteSize_eq] at inside
  have same : zipper.next.back = zipper := by
    obtain ⟨before, _ | ⟨char, rest⟩, mark⟩ := zipper
    · exact absurd inside (lt_irrefl _)
    · rfl
  rw [same] at after
  exact after.unique refines

/-- Away from the beginning, a step undoes a step back. -/
theorem back_next (refines : Refines text cursor zipper) (inside : 0 < cursor.offset) :
    cursor.back.next = cursor := by
  have after := refines.back.next
  rw [refines.offset] at inside
  have same : zipper.back.next = zipper := by
    obtain ⟨_ | ⟨char, rest⟩, after, mark⟩ := zipper
    · exact absurd inside (lt_irrefl _)
    · rfl
  rw [same] at after
  exact after.unique refines

theorem next_eq_self (refines : Refines text cursor zipper)
    (ended : cursor.offset = text.utf8ByteSize) : cursor.next = cursor := by
  have after := refines.next
  rw [refines.utf8ByteSize_eq] at ended
  have same : zipper.next = zipper := by
    obtain ⟨before, _ | ⟨char, rest⟩, mark⟩ := zipper
    · rfl
    · have pos := byteLength_pos (List.cons_ne_nil char rest)
      dsimp only at ended
      omega
  rw [same] at after
  exact after.unique refines

end Refines

/-! ## Cursors after any steps -/

/-- What a cursor over a text is, by the zipper that the same steps lead to. -/
structure MovesLike (text : String) (cursor : Cursor) (zipper : Zipper) : Prop where
  /-- The zipper stands in the same text. -/
  chars : zipper.chars = text.toList
  /-- Both places are between characters of the text. -/
  boundaries : String.Pos.Raw.IsValid text ⟨cursor.offset⟩ ∧
    String.Pos.Raw.IsValid text ⟨cursor.mark⟩
  offset : cursor.offset = byteLength zipper.before.reverse
  mark : cursor.mark = byteLength (text.toList.take zipper.mark)
  /-- A step and a step back undo each other where there is a character to step over. -/
  next_back : cursor.offset < text.utf8ByteSize → cursor.next.back = cursor
  back_next : 0 < cursor.offset → cursor.back.next = cursor
  /-- At the end there is no step. -/
  ended : cursor.offset = text.utf8ByteSize → cursor.next = cursor
  slice : cursor.slice? = zipper.slice?.map String.ofList
  slice_fails : cursor.slice? = none ↔ cursor.offset < cursor.mark

theorem Refines.movesLike {text : String} {cursor : Cursor} {zipper : Zipper}
    (refines : Refines text cursor zipper) : MovesLike text cursor zipper where
  chars := refines.chars
  boundaries := ⟨refines.isValid_offset, refines.isValid_mark⟩
  offset := refines.offset
  mark := refines.mark
  next_back := refines.next_back
  back_next := refines.back_next
  ended := refines.next_eq_self
  slice := refines.slice?_eq
  slice_fails := by
    unfold Cursor.slice?
    split
    · next before => exact ⟨nofun, fun later => absurd before (Nat.not_le.mpr later)⟩
    · next later => exact ⟨fun _ => Nat.lt_of_not_le later, fun _ => rfl⟩

/-- A cursor is a zipper over the characters of its text: whatever steps are taken, both give the
same answers, and the cursor stands, as its mark does, between the same characters. -/
theorem cursors_move_like_zippers (text : String) (steps : List Step) :
    (runSteps Cursor.step (.ofText text) steps).1 =
        (runSteps Zipper.step (.ofText text) steps).1 ∧
      MovesLike text (runSteps Cursor.step (.ofText text) steps).2
        (runSteps Zipper.step (.ofText text) steps).2 := by
  obtain ⟨answers, refines⟩ := (Refines.ofText text).run steps
  exact ⟨answers, refines.movesLike⟩

/-- At the end of a text there is no step that a step back could undo, so it goes to another
place. -/
theorem back_after_end_moves :
    ¬ ∀ (text : String) (steps : List Step),
      (runSteps Cursor.step (.ofText text) (steps ++ [.next, .back])).2.offset =
        (runSteps Cursor.step (.ofText text) steps).2.offset := by
  intro all
  exact absurd (all "a" [.next]) (by decide +kernel)

end Text
end Scriptlet
