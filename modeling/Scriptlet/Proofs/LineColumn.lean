import Mathlib.Data.Prod.Lex
import Scriptlet.Proofs.Positions

/-!
# Lines and columns identify places

A line and a column say as much as a byte offset between two characters does: places come in the
order of their offsets, and a place leads back to its offset, through the lines of the text.

* `Position.lt_foldl_after`: reading on leads to a later place;
* `Stands.step`, `Stands.run`: reading on keeps what a place says about the lines around it;
* `Position.offset?`: the way back from a place;
* `Position.ofOffset?_eq_some_iff`: a place by counting the line feeds and characters before it.
-/

namespace Scriptlet
namespace Text

/-! ## Places in order -/

namespace Position

/-- Places come line by line, and inside a line column by column. -/
def key (place : Position) : ℕ ×ₗ ℕ :=
  toLex (place.line, place.column)

theorem lt_after (place : Position) (char : Char) : place.key < (place.after char).key := by
  rw [key, key, Prod.Lex.toLex_lt_toLex]
  by_cases feed : char = '\n'
  · rw [after, if_pos feed]
    exact .inl (Nat.lt_succ_self _)
  · rw [after, if_neg feed]
    exact .inr ⟨rfl, Nat.lt_succ_self _⟩

theorem lt_foldl_after (place : Position) {chars : List Char} (nonempty : chars ≠ []) :
    place.key < (chars.foldl after place).key := by
  induction chars generalizing place with
  | nil => exact absurd rfl nonempty
  | cons char rest ih =>
    have first := place.lt_after char
    cases rest with
    | nil => exact first
    | cons next rest => exact first.trans (ih (place.after char) (List.cons_ne_nil next rest))

end Position

/-! ## Lines -/

/-- The lines of a text, without the line feeds between them. -/
def lines (text : String) : List (List Char) :=
  text.toList.splitOn '\n'

/-- The byte offset where a line begins, by the number of lines before it. Each of those takes its
characters and a line feed. -/
def lineStart (text : String) (earlier : ℕ) : ℕ :=
  byteLength (((lines text).take earlier).flatMap (· ++ ['\n']))

/-- The byte offset of a place: where its line begins, and on from there by the characters before
its column. There is none if the text has no such line, or the line no such column. -/
def Position.offset? (text : String) : Position → Option ℕ
  | ⟨earlier + 1, before + 1⟩ =>
    ((lines text)[earlier]?.filter (before ≤ ·.length)).map fun line =>
      lineStart text earlier + byteLength (line.take before)
  | _ => none

/-- A place in a text that is cut into lines, with its byte offset and the characters after it:
they are what is left of its line, and the later lines. -/
inductive Stands (lines : List (List Char)) (place : Position) (offset : ℕ) (rest : List Char) :
    Prop where
  | intro (earlier : List (List Char)) (before after : List Char) (later : List (List Char))
    (cut : lines = earlier ++ (before ++ after) :: later)
    (left : rest.splitOn '\n' = after :: later)
    (isPlace : place = ⟨earlier.length + 1, before.length + 1⟩)
    (isOffset : offset = byteLength (earlier.flatMap (· ++ ['\n'])) + byteLength before)

namespace Stands

theorem start (text : String) : Stands (lines text) .start 0 text.toList := by
  obtain ⟨first, later, split⟩ := List.exists_cons_of_ne_nil (List.splitOn_ne_nil '\n' text.toList)
  exact ⟨[], [], first, later, split, split, rfl, rfl⟩

/-- A line feed ends the line, and any other character is the next one of the line. -/
theorem step {lines : List (List Char)} {place : Position} {offset : ℕ} {char : Char}
    {rest : List Char} (stands : Stands lines place offset (char :: rest)) :
    Stands lines (place.after char) (offset + char.utf8Size) rest := by
  obtain ⟨earlier, before, after, later, cut, left, rfl, rfl⟩ := stands
  -- `next` is what is left of the line that the characters of `rest` begin in.
  obtain ⟨next, later', split⟩ := List.exists_cons_of_ne_nil (List.splitOn_ne_nil '\n' rest)
  rw [List.splitOn_cons_eq_if_modifyHead, split] at left
  by_cases feed : char = '\n'
  · rw [if_pos (beq_iff_eq.mpr feed), List.cons.injEq] at left
    obtain ⟨rfl, rfl⟩ := left
    refine ⟨earlier ++ [before], [], next, later', ?_, split, ?_, ?_⟩
    · rw [cut, List.append_nil, List.append_assoc]
      rfl
    · rw [Position.after, if_pos feed, List.length_append]
      rfl
    · simp [feed, Nat.add_assoc]
  · rw [if_neg (mt beq_iff_eq.mp feed), List.modifyHead_cons, List.cons.injEq] at left
    obtain ⟨rfl, rfl⟩ := left
    refine ⟨earlier, before ++ [char], next, later', ?_, split, ?_, ?_⟩
    · rw [cut, List.append_assoc]
      rfl
    · rw [Position.after, if_neg feed, List.length_append]
      rfl
    · simp [Nat.add_assoc]

theorem run {lines : List (List Char)} {place : Position} {offset : ℕ} {before rest : List Char}
    (stands : Stands lines place offset (before ++ rest)) :
    Stands lines (before.foldl Position.after place) (offset + byteLength before) rest := by
  induction before generalizing place offset with
  | nil => exact stands
  | cons char before ih =>
    have further := ih stands.step
    rwa [Nat.add_assoc] at further

theorem offset?_eq {text : String} {place : Position} {offset : ℕ} {rest : List Char}
    (stands : Stands (lines text) place offset rest) : place.offset? text = some offset := by
  obtain ⟨earlier, before, after, later, cut, -, rfl, rfl⟩ := stands
  have line : (lines text)[earlier.length]? = some (before ++ after) := by
    rw [cut, List.getElem?_append_right le_rfl, Nat.sub_self]
    rfl
  have begins : lineStart text earlier.length = byteLength (earlier.flatMap (· ++ ['\n'])) := by
    rw [lineStart, cut, List.take_left]
  have within : before.length ≤ (before ++ after).length := by simp
  rw [Position.offset?, line, Option.filter_some, if_pos (decide_eq_true within), Option.map_some,
    begins, List.take_left]

end Stands

/-! ## Places of a text -/

namespace Position

variable {text : String}

/-- A position of a text is behind some of its characters. -/
theorem exists_split (position : text.Pos) :
    ∃ before after, text.toList = before ++ after ∧
      position.offset.byteIdx = byteLength before := by
  obtain ⟨before, after, split, isEnd⟩ :=
    String.Pos.Raw.isValid_iff_exists_append.mp position.isValid
  refine ⟨before.toList, after.toList, ?_, ?_⟩
  · rw [split, String.toList_append]
  · rw [isEnd, String.byteIdx_rawEndPos, utf8ByteSize_eq_byteLength]

theorem ofOffset?_eq {before after : List Char} (split : text.toList = before ++ after) :
    ofOffset? text (byteLength before) = some (before.foldl Position.after start) := by
  rw [ofOffset?, split, advance?_append]

theorem exists_ofOffset?_eq (position : text.Pos) :
    ∃ place, ofOffset? text position.offset.byteIdx = some place := by
  obtain ⟨before, after, split, offset⟩ := exists_split position
  rw [offset, ofOffset?_eq split]
  exact ⟨_, rfl⟩

theorem ofOffset?_beyond (text : String) (beyond : ℕ) :
    ofOffset? text (text.utf8ByteSize + beyond) = some (text.toList.foldl after start) := by
  have further := start.advance?_append_add text.toList [] beyond
  rwa [List.append_nil, advance?_nil, ← utf8ByteSize_eq_byteLength] at further

/-- Of two beginnings of the same characters, the one with more bytes goes on from the other. -/
theorem exists_eq_append {before after before' after' : List Char}
    (same : before ++ after = before' ++ after') (less : byteLength before < byteLength before') :
    ∃ between ≠ [], before' = before ++ between := by
  rcases List.append_eq_append_iff.mp same with ⟨between, rfl, -⟩ | ⟨between, rfl, -⟩
  · refine ⟨between, ?_, rfl⟩
    rintro rfl
    rw [List.append_nil] at less
    exact lt_irrefl _ less
  · rw [byteLength_append] at less
    omega

theorem key_lt {near far : text.Pos} {place place' : Position} (less : near < far)
    (isNear : ofOffset? text near.offset.byteIdx = some place)
    (isFar : ofOffset? text far.offset.byteIdx = some place') : place.key < place'.key := by
  rw [String.Pos.lt_iff, String.Pos.Raw.lt_iff] at less
  obtain ⟨before, after, split, offset⟩ := exists_split near
  obtain ⟨before', after', split', offset'⟩ := exists_split far
  rw [offset, ofOffset?_eq split, Option.some.injEq] at isNear
  rw [offset', ofOffset?_eq split', Option.some.injEq] at isFar
  rw [offset, offset'] at less
  obtain ⟨between, nonempty, rfl⟩ := exists_eq_append (split.symm.trans split') less
  rw [List.foldl_append, isNear] at isFar
  rw [← isFar]
  exact place.lt_foldl_after nonempty

theorem offset?_of_ofOffset? {position : text.Pos} {place : Position}
    (located : ofOffset? text position.offset.byteIdx = some place) :
    place.offset? text = some position.offset.byteIdx := by
  obtain ⟨before, after, split, offset⟩ := exists_split position
  rw [offset, ofOffset?_eq split, Option.some.injEq] at located
  have stands := Stands.start text
  rw [split] at stands
  have reached := stands.run.offset?_eq
  rwa [located, Nat.zero_add, ← offset] at reached

/-! ## Places by counting -/

/-- The place behind some characters, by counting the line feeds among them and the characters
after the last line feed. -/
def behind (before : List Char) : Position :=
  ⟨before.count '\n' + 1, (before.reverse.takeWhile (· ≠ '\n')).length + 1⟩

theorem behind_concat (before : List Char) (char : Char) :
    behind (before ++ [char]) = (behind before).after char := by
  by_cases feed : char = '\n'
  · simp [behind, after, feed]
  · simp [behind, after, feed, List.count_append]

theorem foldl_after_start (before : List Char) : before.foldl after start = behind before := by
  induction before using List.reverseRecOn with
  | nil => rfl
  | append_singleton before char ih =>
    rw [List.foldl_append, ih, behind_concat]
    rfl

/-- An offset that has a place is behind some of the characters, or past the end. -/
theorem exists_split_of_advance? {position place : Position} {chars : List Char} {offset : ℕ}
    (located : position.advance? chars offset = some place) :
    ∃ before after, chars = before ++ after ∧ byteLength before = min offset (byteLength chars) ∧
      place = before.foldl Position.after position := by
  fun_induction advance? position chars offset with
  | case1 position =>
    exact ⟨[], _, rfl, by simp, (Option.some.inj located).symm⟩
  | case2 position offset =>
    exact ⟨[], [], rfl, by simp, (Option.some.inj located).symm⟩
  | case3 position char rest offset fits ih =>
    obtain ⟨before, after, rfl, isEnd, rfl⟩ := ih located
    refine ⟨char :: before, after, rfl, ?_, rfl⟩
    rw [byteLength_cons, isEnd, byteLength_cons]
    omega
  | case4 => cases located

/-- A byte offset is cut off at the end of the text, and its place is that behind the characters
before it; inside a character it has none. -/
theorem ofOffset?_eq_some_iff {offset : ℕ} {place : Position} :
    ofOffset? text offset = some place ↔
      ∃ before after, text.toList = before ++ after ∧
        byteLength before = min offset text.utf8ByteSize ∧ place = behind before := by
  constructor
  · intro located
    obtain ⟨before, after, split, isEnd, rfl⟩ := exists_split_of_advance? located
    refine ⟨before, after, split, ?_, foldl_after_start before⟩
    rw [isEnd, utf8ByteSize_eq_byteLength]
  · rintro ⟨before, after, split, isEnd, rfl⟩
    rw [← foldl_after_start]
    rcases le_total offset text.utf8ByteSize with within | beyond
    · rw [min_eq_left within] at isEnd
      rw [← isEnd, ofOffset?_eq split]
    · -- The characters before it are then the whole text.
      rw [min_eq_right beyond, utf8ByteSize_eq_byteLength, split, byteLength_append] at isEnd
      obtain rfl : after = [] := by
        by_contra nonempty
        have := byteLength_pos nonempty
        omega
      obtain ⟨further, rfl⟩ := Nat.exists_eq_add_of_le beyond
      rw [ofOffset?_beyond, split, List.append_nil]

end Position

/-- Every position between two characters of a text, and at its ends, has a line and a column. They
come in the order of the positions, so no two positions share them; past the end they are those of
the end; and they lead back to the position. -/
theorem places_identify_positions (text : String) :
    ∃ place : text.Pos → Position,
      (∀ position, Position.ofOffset? text position.offset.byteIdx = some (place position)) ∧
        (∀ near far, near < far ↔ (place near).key < (place far).key) ∧
        Function.Injective place ∧
        (∀ beyond,
          Position.ofOffset? text (text.utf8ByteSize + beyond) = some (place text.endPos)) ∧
        ∀ position, (place position).offset? text = some position.offset.byteIdx := by
  choose place located using @Position.exists_ofOffset?_eq text
  have back (position : text.Pos) := Position.offset?_of_ofOffset? (located position)
  have increasing {near far : text.Pos} (less : near < far) :=
    Position.key_lt less (located near) (located far)
  refine ⟨place, located, ?_, ?_, ?_, back⟩
  · intro near far
    refine ⟨increasing, fun less => ?_⟩
    -- In the other two cases the places would not be in this order.
    rcases Std.lt_trichotomy near far with before | rfl | later
    · exact before
    · exact absurd less (lt_irrefl _)
    · exact absurd less (increasing later).not_gt
  · intro near far same
    have offsets := back near
    rw [same, back far, Option.some.injEq] at offsets
    exact String.Pos.ext (String.Pos.Raw.ext offsets.symm)
  · intro beyond
    have atEnd := located text.endPos
    rw [String.offset_endPos, String.byteIdx_rawEndPos] at atEnd
    rw [← atEnd, Position.ofOffset?_beyond, ← Position.ofOffset?_beyond text 0, Nat.add_zero]

/-- The offset inside a character has no place, and those past the end have the last one. -/
example : (List.range 7).map (Position.ofOffset? "é\na") =
    [some ⟨1, 1⟩, none, some ⟨1, 2⟩, some ⟨2, 1⟩, some ⟨2, 2⟩, some ⟨2, 2⟩, some ⟨2, 2⟩] := by
  decide

end Text
end Scriptlet
