import Mathlib.Data.List.Infix
import Scriptlet.Token.Scan

/-!
# White space and comments

What may stand between two tokens, as a predicate on texts that does not refer to scanning.
Every text begins with such a stretch, up to a place where it halts, and scanning passes over
the stretch: it comes to the same place and knows whether there was a line break.

* `exists_spacing`: every text is a stretch of white space and comments and what halts it;
* `skipGap_spacing`: scanning passes over such a stretch;
* `skipGap_halt_line`, `skipGap_halt_block`, `skipGap_halt_token`: scanning stops where the
  stretch halts.
-/

namespace Scriptlet
namespace Scan

open Text (byteLength)

/-- White space and complete comments. A line comment ends with its line, a block comment
where it is closed for the first time. -/
inductive Spacing : List Char → Prop where
  | nil : Spacing []
  | space {char : Char} {rest : List Char} (isSpace : Text.isWhiteSpace char = true)
    (more : Spacing rest) : Spacing (char :: rest)
  | line {body rest : List Char} (within : '\n' ∉ body) (more : Spacing rest) :
    Spacing ('/' :: '/' :: (body ++ '\n' :: rest))
  | block {body rest : List Char} (within : ¬['*', '/'] <:+: body) (more : Spacing rest) :
    Spacing ('/' :: '*' :: (body ++ '*' :: '/' :: rest))

/-- What ends a stretch of white space and comments: the end of the text, also inside of a
comment, or a character that belongs to neither. -/
inductive Halt : List Char → Prop where
  | stop : Halt []
  | line {body : List Char} (within : '\n' ∉ body) : Halt ('/' :: '/' :: body)
  | block {body : List Char} (within : ¬['*', '/'] <:+: body) : Halt ('/' :: '*' :: body)
  | token {char : Char} {rest : List Char} (isSpace : Text.isWhiteSpace char = false)
    (opens : char = '/' → rest.head? ≠ some '/' ∧ rest.head? ≠ some '*') : Halt (char :: rest)

/-- White space and comments, of which the last may be a line comment that ends with the
text. -/
def Trailing (text : List Char) : Prop :=
  ∃ gap rest, text = gap ++ rest ∧ Spacing gap ∧
    (rest = [] ∨ ∃ body, rest = '/' :: '/' :: body ∧ '\n' ∉ body)

theorem Spacing.append {gap gap' : List Char} (spacing : Spacing gap) (more : Spacing gap') :
    Spacing (gap ++ gap') := by
  induction spacing with
  | nil => exact more
  | space isSpace _ ih => exact .space isSpace ih
  | line within _ ih => simpa using Spacing.line within ih
  | block within _ ih => simpa using Spacing.block within ih

theorem newline_isSpace : Text.isWhiteSpace '\n' = true := by
  decide +kernel

/-- A line break completes a comment that would end with the text. -/
theorem Trailing.broken {text : List Char} (trails : Trailing text) : Spacing (text ++ ['\n']) := by
  obtain ⟨gap, rest, rfl, spacing, rfl | ⟨body, rfl, within⟩⟩ := trails
  · rw [List.append_nil]
    exact spacing.append (.space newline_isSpace .nil)
  · rw [List.append_assoc]
    exact spacing.append (.line within .nil)

/-! ## Every text begins with a stretch -/

/-- A block comment that is closed is closed for a first time. -/
theorem exists_first_close {text : List Char} (closes : ['*', '/'] <:+: text) :
    ∃ body rest, text = body ++ '*' :: '/' :: rest ∧ ¬['*', '/'] <:+: body := by
  induction text with
  | nil => simp at closes
  | cons char text ih =>
    by_cases here : ['*', '/'] <+: char :: text
    · obtain ⟨rest, same⟩ := here
      exact ⟨[], rest, same.symm, by simp⟩
    · obtain ⟨body, rest, rfl, none⟩ := ih ((List.infix_cons_iff.mp closes).resolve_left here)
      refine ⟨char :: body, rest, rfl, fun again => ?_⟩
      rcases List.infix_cons_iff.mp again with first | later
      · exact here (first.trans (by simp))
      · exact none later

/-- Every text is a stretch of white space and comments and what halts it. -/
theorem exists_spacing (text : List Char) :
    ∃ gap rest, text = gap ++ rest ∧ Spacing gap ∧ Halt rest := by
  induction size : text.length using Nat.strong_induction_on generalizing text with
  | _ size ih =>
    subst size
    match text with
    | [] => exact ⟨[], [], rfl, .nil, .stop⟩
    | char :: rest =>
      by_cases isSpace : Text.isWhiteSpace char = true
      · obtain ⟨gap, left, rfl, spacing, halt⟩ := ih rest.length (by simp) rest rfl
        exact ⟨char :: gap, left, rfl, .space isSpace spacing, halt⟩
      · by_cases opens : char = '/' ∧ (rest.head? = some '/' ∨ rest.head? = some '*')
        · obtain ⟨rfl, opens | opens⟩ := opens
          · obtain ⟨body, rfl⟩ := List.head?_eq_some_iff.mp opens
            by_cases ended : '\n' ∈ body
            · obtain ⟨line, later, rfl, within⟩ := List.eq_append_cons_of_mem ended
              obtain ⟨gap, left, rfl, spacing, halt⟩ := ih later.length (by simp; omega) later rfl
              exact ⟨'/' :: '/' :: (line ++ '\n' :: gap), left, by simp, .line within spacing, halt⟩
            · exact ⟨[], _, rfl, .nil, .line ended⟩
          · obtain ⟨body, rfl⟩ := List.head?_eq_some_iff.mp opens
            by_cases closed : ['*', '/'] <:+: body
            · obtain ⟨inside, later, rfl, within⟩ := exists_first_close closed
              obtain ⟨gap, left, rfl, spacing, halt⟩ := ih later.length (by simp; omega) later rfl
              exact ⟨'/' :: '*' :: (inside ++ '*' :: '/' :: gap), left, by simp,
                .block within spacing, halt⟩
            · exact ⟨[], _, rfl, .nil, .block closed⟩
        · refine ⟨[], _, rfl, .nil, .token (by simpa using isSpace) fun isSlash => ?_⟩
          exact ⟨fun next => opens ⟨isSlash, .inl next⟩, fun next => opens ⟨isSlash, .inr next⟩⟩

/-! ## Scanning passes over it -/

theorem newline_cons (newline : Bool) (char : Char) (text : List Char) :
    (newline || char == '\n' || decide ('\n' ∈ text)) =
      (newline || decide ('\n' ∈ char :: text)) := by
  by_cases same : char = '\n'
  · simp [same]
  · rw [beq_eq_false_iff_ne.mpr same]
    simp [Ne.symm same]

theorem slash_not_space : Text.isWhiteSpace '/' = false := by
  decide +kernel

theorem skipGap_line {body : List Char} (within : '\n' ∉ body) (newline : Bool) (position : Nat)
    (rest : List Char) :
    skipGap .line newline position (body ++ '\n' :: rest) =
      skipGap .blank true (position + byteLength body + 1) rest := by
  induction body generalizing position with
  | nil => simp [skipGap]
  | cons char body ih =>
    have other : char ≠ '\n' := fun same => within (by simp [same])
    rw [List.cons_append, skipGap, if_neg (by simpa using other),
      ih (fun member => within (List.mem_cons_of_mem char member)), Text.byteLength_cons,
      ← Nat.add_assoc]

theorem skipGap_openLine {body : List Char} (within : '\n' ∉ body) (newline : Bool)
    (position : Nat) :
    skipGap .line newline position body = .stop newline (position + byteLength body) := by
  induction body generalizing position with
  | nil => rfl
  | cons char body ih =>
    have other : char ≠ '\n' := fun same => within (by simp [same])
    rw [skipGap, if_neg (by simpa using other),
      ih (fun member => within (List.mem_cons_of_mem char member)), Text.byteLength_cons,
      ← Nat.add_assoc]

/-- What was read of a block comment last, as far as it may be the beginning of its end. -/
def pending (star : Bool) : List Char :=
  if star then ['*'] else []

/-- A character inside of a block comment does not close it, and what follows is inside of it
as well. -/
theorem within_step {star : Bool} {char : Char} {body : List Char}
    (within : ¬['*', '/'] <:+: pending star ++ char :: body) :
    (star && char == '/') = false ∧ ¬['*', '/'] <:+: pending (char == '*') ++ body := by
  constructor
  · cases star with
    | false => rfl
    | true =>
      have other : char ≠ '/' := by
        rintro rfl
        exact within (List.prefix_append ['*', '/'] body).isInfix
      simpa using other
  · have later : ¬['*', '/'] <:+: char :: body := fun closes =>
      within (closes.trans (List.suffix_append _ _).isInfix)
    by_cases isStar : char = '*'
    · subst isStar
      exact later
    · rw [beq_eq_false_iff_ne.mpr isStar]
      exact fun closes => later (closes.trans (List.suffix_cons char body).isInfix)

theorem skipGap_block {body : List Char} (start : Nat) (star : Bool)
    (within : ¬['*', '/'] <:+: pending star ++ body) (newline : Bool) (position : Nat)
    (rest : List Char) :
    skipGap (.block start star) newline position (body ++ '*' :: '/' :: rest) =
      skipGap .blank (newline || decide ('\n' ∈ body)) (position + byteLength body + 2) rest := by
  induction body generalizing star newline position with
  | nil =>
    have size : '*'.utf8Size = 1 := rfl
    simp [skipGap, size, Nat.add_assoc]
  | cons char body ih =>
    obtain ⟨goesOn, later⟩ := within_step within
    have size : position + char.utf8Size + byteLength body + 2 =
        position + byteLength (char :: body) + 2 := by
      rw [Text.byteLength_cons]
      omega
    rw [List.cons_append, skipGap, if_neg (by simp [goesOn]), ih _ later, size, newline_cons]

theorem skipGap_openBlock {body : List Char} (start : Nat) (star : Bool)
    (within : ¬['*', '/'] <:+: pending star ++ body) (newline : Bool) (position : Nat) :
    skipGap (.block start star) newline position body =
      .unterminated start (position + byteLength body) := by
  induction body generalizing star newline position with
  | nil => rfl
  | cons char body ih =>
    obtain ⟨goesOn, later⟩ := within_step within
    rw [skipGap, if_neg (by simp [goesOn]), ih _ later, Text.byteLength_cons, ← Nat.add_assoc]

/-- Scanning passes over white space and comments, and knows whether there was a line
break. -/
theorem skipGap_spacing {gap : List Char} (spacing : Spacing gap) (newline : Bool)
    (position : Nat) (rest : List Char) :
    skipGap .blank newline position (gap ++ rest) =
      skipGap .blank (newline || decide ('\n' ∈ gap)) (position + byteLength gap) rest := by
  have size : '/'.utf8Size = 1 ∧ '*'.utf8Size = 1 ∧ '\n'.utf8Size = 1 := ⟨rfl, rfl, rfl⟩
  induction spacing generalizing newline position with
  | nil => simp
  | @space char gap isSpace _ ih =>
    rw [List.cons_append, skipGap, if_pos isSpace, ih, newline_cons, Text.byteLength_cons,
      ← Nat.add_assoc]
  | @line body gap within _ ih =>
    -- the second slash counts as the first character of the comment
    have inside : '\n' ∉ '/' :: body := by simpa using within
    have step := skipGap_line inside newline (position + 1) (gap ++ rest)
    have total : position + 1 + byteLength ('/' :: body) + 1 + byteLength gap =
        position + byteLength ('/' :: '/' :: (body ++ '\n' :: gap)) := by
      simp only [Text.byteLength_cons, Text.byteLength_append, size]
      omega
    simp only [List.cons_append, List.append_assoc] at step ⊢
    rw [skipGap, if_neg (by simp [slash_not_space]), if_pos (by simp), step, ih, total]
    simp
  | @block body gap within _ ih =>
    have step := skipGap_block position false within newline (position + 2) (gap ++ rest)
    have total : position + 2 + byteLength body + 2 + byteLength gap =
        position + byteLength ('/' :: '*' :: (body ++ '*' :: '/' :: gap)) := by
      simp only [Text.byteLength_cons, Text.byteLength_append, size]
      omega
    simp only [List.cons_append, List.append_assoc] at step ⊢
    rw [skipGap, if_neg (by simp [slash_not_space]), if_neg (by simp), if_pos (by simp), skipGap,
      step, ih, total]
    simp [Bool.or_assoc]

/-! ## Scanning halts where it does -/

theorem skipGap_halt_line {body : List Char} (within : '\n' ∉ body) (newline : Bool)
    (position : Nat) :
    skipGap .blank newline position ('/' :: '/' :: body) =
      .stop newline (position + byteLength ('/' :: '/' :: body)) := by
  have inside : '\n' ∉ '/' :: body := by simpa using within
  rw [skipGap, if_neg (by simp [slash_not_space]), if_pos (by simp), skipGap_openLine inside,
    Text.byteLength_cons '/' ('/' :: body), ← Nat.add_assoc]
  rfl

theorem skipGap_halt_block {body : List Char} (within : ¬['*', '/'] <:+: body) (newline : Bool)
    (position : Nat) :
    skipGap .blank newline position ('/' :: '*' :: body) =
      .unterminated position (position + byteLength ('/' :: '*' :: body)) := by
  have step := skipGap_openBlock position false within newline (position + 2)
  rw [skipGap, if_neg (by simp [slash_not_space]), if_neg (by simp), if_pos (by simp), skipGap,
    step, Text.byteLength_cons, Text.byteLength_cons, ← Nat.add_assoc, ← Nat.add_assoc]
  rfl

theorem skipGap_halt_token {char : Char} {rest : List Char}
    (isSpace : Text.isWhiteSpace char = false)
    (opens : char = '/' → rest.head? ≠ some '/' ∧ rest.head? ≠ some '*') (newline : Bool)
    (position : Nat) :
    skipGap .blank newline position (char :: rest) = .token newline position char rest := by
  have line : (char == '/' && rest.head? == some '/') = false := by
    by_cases isSlash : char = '/'
    · simpa [isSlash] using (opens isSlash).1
    · simp [isSlash]
  have block : (char == '/' && rest.head? == some '*') = false := by
    by_cases isSlash : char = '/'
    · simpa [isSlash] using (opens isSlash).2
    · simp [isSlash]
  rw [skipGap, if_neg (by simp [isSpace]), if_neg (by simp [line]), if_neg (by simp [block])]

end Scan
end Scriptlet
