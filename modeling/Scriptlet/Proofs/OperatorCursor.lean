import Mathlib.Data.List.Induction
import Mathlib.Logic.Function.Iterate
import Scriptlet.Proofs.CursorZipper
import Scriptlet.Proofs.LongestMatch

/-!
# Operators under a cursor

A cursor finds an operator by going on as long as the tree of the spellings leads further, noting
the last place where a spelling ended, and by stepping back to that place. This gives the token or
the error that `scanOperator` gives, and the cursor ends where scanning goes on.

* `follow`: the way down the tree;
* `follow_spec`: where it ends, and what it has noted on the way;
* `foundBy_scanUnder`: the cursor finds what `scanOperator` gives.
-/

namespace Scriptlet

namespace Text

namespace Trie

variable {α : Type} {trie subtree : Trie α} {char : Char}

theorem walk_of_stuck (isChild : trie.child? char = none) (text : List Char) :
    trie.walk (char :: text) = ([], char :: text) := by
  rw [walk, isChild]

theorem walk_of_further (isChild : trie.child? char = some subtree) (text : List Char) :
    trie.walk (char :: text) = (char :: (subtree.walk text).1, (subtree.walk text).2) := by
  rw [walk, isChild]

end Trie

/-- A character that is there is passed by a step. -/
theorem Cursor.offset_lt_of_peek? {cursor : Cursor} {char : Char}
    (peeked : cursor.peek? = some char) :
    cursor.offset < cursor.text.utf8ByteSize ∧ cursor.offset < cursor.next.offset ∧
      cursor.next.text = cursor.text := by
  have inside : cursor.offset < cursor.text.utf8ByteSize := by
    by_contra ended
    rw [peek?, if_neg ended] at peeked
    cases peeked
  rw [next, peeked]
  exact ⟨inside, Nat.lt_add_of_pos_right char.utf8Size_pos, rfl⟩

theorem Zipper.iterate_back {given before after : List Char} {mark : ℕ} :
    Zipper.back^[given.length] ⟨given.reverse ++ before, after, mark⟩ =
      ⟨before, given ++ after, mark⟩ := by
  induction given using List.reverseRecOn generalizing after with
  | nil => rfl
  | append_singleton given char ih =>
    rw [List.length_append, List.length_singleton, Function.iterate_succ_apply,
      List.reverse_append, List.append_assoc given]
    exact ih

namespace Refines

variable {text : String} {cursor : Cursor}

theorem iterate_back {zipper : Zipper} (refines : Refines text cursor zipper) (steps : ℕ) :
    Refines text (Cursor.back^[steps] cursor) (Zipper.back^[steps] zipper) := by
  induction steps generalizing cursor zipper with
  | zero => exact refines
  | succ steps ih => exact ih refines.back

/-- The text between the mark and a cursor that has passed some characters since. -/
theorem slice?_of_passed {passed before after : List Char}
    (refines : Refines text cursor ⟨passed.reverse ++ before, after, before.length⟩) :
    cursor.slice? = some (String.ofList passed) := by
  rw [refines.slice?_eq, Zipper.slice?]
  simp

theorem offset_of_passed {passed before after : List Char} {mark : ℕ}
    (refines : Refines text cursor ⟨passed.reverse ++ before, after, mark⟩) :
    cursor.offset = byteLength before.reverse + byteLength passed := by
  rw [refines.offset, List.reverse_append, List.reverse_reverse, byteLength_append]

end Refines
end Text

namespace Scan

open Text (Cursor Refines Trie Zipper byteLength)

variable {α : Type}

/-! ## The way down the tree -/

/-- A way down a tree. -/
structure Descent (α : Type) where
  /-- Where it leads. -/
  subtree : Trie α
  /-- How many characters it takes. -/
  scanned : ℕ
  /-- The last word that ends on it, and how many characters that has. -/
  accepted : Option (α × ℕ)

namespace Descent

/-- The way that takes no character. -/
def start (trie : Trie α) : Descent α :=
  ⟨trie, 0, none⟩

/-- Goes on by one character, to a subtree of the one reached. -/
def enter (descent : Descent α) : Trie α → Descent α
  | .node value children =>
    let scanned := descent.scanned + 1
    ⟨.node value children, scanned, (value.map (·, scanned)).or descent.accepted⟩

@[simp]
theorem enter_scanned (descent : Descent α) (subtree : Trie α) :
    (descent.enter subtree).scanned = descent.scanned + 1 := by
  cases subtree
  rfl

end Descent

/-- Passes the characters that lead further down the tree. The first one that does not is passed
too, and then given back. -/
def follow (cursor : Cursor) (descent : Descent α) : Cursor × Descent α :=
  match _passed : cursor.peek? with
  | none => (cursor, descent)
  | some char =>
    match descent.subtree.child? char with
    | some subtree => follow cursor.next (descent.enter subtree)
    | none => (cursor.next.back, descent)
termination_by cursor.text.utf8ByteSize - cursor.offset
decreasing_by
  obtain ⟨inside, further, sameText⟩ := Cursor.offset_lt_of_peek? _passed
  rw [sameText]
  omega

/-- The token of the last word on the way, with the cursor back at the end of that word; an error
without such a word. There is no result if the cursor is before its mark. -/
def settle (kind : α → Kind) (newline : Bool) (base start : ℕ) (cursor : Cursor)
    (descent : Descent α) : Option (Except Error Token × Cursor) :=
  match descent.accepted with
  | none =>
    cursor.slice?.map fun lexeme => (.error (.lexical (.incompleteOperator lexeme) start), cursor)
  | some (operator, length) =>
    let cursor := Cursor.back^[descent.scanned - length] cursor
    cursor.slice?.map fun lexeme =>
      (.ok ⟨kind operator, lexeme, start, base + cursor.offset, newline⟩, cursor)

/-- Scans an operator with a cursor that has passed its first character and has its mark before
that. Offsets of the text count from `base`. -/
def scanUnder (trie : Trie α) (kind : α → Kind) (newline : Bool) (base start : ℕ) (char : Char)
    (cursor : Cursor) : Option (Except Error Token × Cursor) :=
  match trie.child? char with
  | none => some (.error (.lexical (.unrecognizedCharacter char) start), cursor)
  | some subtree =>
    let reached := follow cursor ((Descent.start trie).enter subtree)
    settle kind newline base start reached.1 reached.2

variable {text : String} {cursor : Cursor} {before after : List Char} {mark : ℕ}

theorem follow_ended (refines : Refines text cursor ⟨before, [], mark⟩) (descent : Descent α) :
    follow cursor descent = (cursor, descent) := by
  have ended : cursor.peek? = none := refines.peek?_eq
  rw [follow]
  split
  · rfl
  · next passed =>
    rw [ended] at passed
    cases passed

variable {char : Char}

theorem follow_further (refines : Refines text cursor ⟨before, char :: after, mark⟩)
    {descent : Descent α} {subtree : Trie α}
    (isChild : descent.subtree.child? char = some subtree) :
    follow cursor descent = follow cursor.next (descent.enter subtree) := by
  have peeked : cursor.peek? = some char := refines.peek?_eq
  rw [follow]
  split
  · next ended =>
    rw [ended] at peeked
    cases peeked
  · next passed =>
    obtain rfl := Option.some.inj (peeked.symm.trans passed)
    rw [isChild]

/-- A character that leads nowhere is passed and given back. -/
theorem follow_stuck (refines : Refines text cursor ⟨before, char :: after, mark⟩)
    {descent : Descent α} (isChild : descent.subtree.child? char = none) :
    follow cursor descent = (cursor, descent) := by
  have peeked : cursor.peek? = some char := refines.peek?_eq
  have given : cursor.next.back = cursor := refines.next.back.unique refines
  rw [follow]
  split
  · rfl
  · next passed =>
    obtain rfl := Option.some.inj (peeked.symm.trans passed)
    rw [isChild]
    dsimp only
    rw [given]

/-- What following a text from behind some descent leads to: the cursor goes as far as the tree
leads, and the longest word on the way is noted, if there is one. -/
structure Follows (text : String) (before after : List Char) (mark : ℕ) (descent : Descent α)
    (subtree : Trie α) (result : Cursor × Descent α) : Prop where
  refines : Refines text result.1
    ⟨(subtree.walk after).1.reverse ++ before, (subtree.walk after).2, mark⟩
  scanned : result.2.scanned = descent.scanned + 1 + (subtree.walk after).1.length
  accepted : result.2.accepted = ((subtree.longest? after).map fun found =>
    (found.1, descent.scanned + 1 + (after.length - found.2.length))).or descent.accepted

theorem follow_spec (refines : Refines text cursor ⟨before, after, mark⟩) (descent : Descent α)
    (subtree : Trie α) :
    Follows text before after mark descent subtree (follow cursor (descent.enter subtree)) := by
  induction after generalizing cursor before descent subtree with
  | nil =>
    obtain ⟨value, children⟩ := subtree
    rw [follow_ended refines]
    refine ⟨refines, rfl, ?_⟩
    cases value <;> rfl
  | cons char after ih =>
    obtain ⟨value, children⟩ := subtree
    cases isChild : (Trie.node value children).child? char with
    | none =>
      rw [follow_stuck refines isChild]
      have walked := Trie.walk_of_stuck isChild after
      have longest : (Trie.node value children).longest? (char :: after) =
          value.map (·, char :: after) := by
        rw [Trie.longest?, isChild]
      refine ⟨by rwa [walked], by rw [walked]; rfl, ?_⟩
      rw [longest]
      cases value <;> simp [Descent.enter]
    | some below =>
      rw [follow_further refines isChild]
      obtain ⟨refines', scanned, accepted⟩ :=
        ih refines.next (descent.enter (.node value children)) below
      have walked := Trie.walk_of_further isChild after
      have longest : (Trie.node value children).longest? (char :: after) =
          (below.longest? after).or (value.map (·, char :: after)) := by
        rw [Trie.longest?, isChild]
      refine ⟨?_, ?_, ?_⟩
      · rw [walked]
        simpa using refines'
      · rw [scanned, walked, Descent.enter_scanned, List.length_cons]
        omega
      · rw [accepted, longest]
        cases found : below.longest? after with
        | none => cases value <;> simp [Descent.enter]
        | some result =>
          obtain ⟨word, isText, -⟩ := Trie.longest?_eq_some found
          simp [Descent.enter, isText]
          omega

/-! ## Scanning -/

variable {spelling : α → String} {operators : List α}

/-- No spelling ends before the first character. -/
theorem longest?_operatorTrie_cons (nonempty : ∀ operator ∈ operators, spelling operator ≠ "")
    (char : Char) (text : List Char) :
    (operatorTrie spelling operators).longest? (char :: text) =
      ((operatorTrie spelling operators).child? char).bind (·.longest? text) := by
  have noValue : (operatorTrie spelling operators).find? [] = none := by
    rw [Option.eq_none_iff_forall_ne_some]
    intro operator found
    obtain ⟨member, spelled⟩ := find?_operatorTrie found
    exact nonempty operator member (String.toList_eq_nil_iff.mp spelled)
  generalize operatorTrie spelling operators = trie at noValue
  obtain ⟨value, children⟩ := trie
  obtain rfl : value = none := noValue
  rw [Trie.longest?]
  cases (Trie.node none children).child? char with
  | none => rfl
  | some subtree => exact Option.or_none

/-- The cursor steps back from where the tree led to the end of the last word on the way. -/
theorem refines_after_back {subtree : Trie α} {operator : α} {rest : List Char}
    (refines : Refines text cursor
      ⟨(subtree.walk after).1.reverse ++ before, (subtree.walk after).2, mark⟩)
    (found : subtree.longest? after = some (operator, rest)) :
    ∃ word, after = word ++ rest ∧ subtree.find? word = some operator ∧
      Refines text (Cursor.back^[(subtree.walk after).1.length - word.length] cursor)
        ⟨word.reverse ++ before, rest, mark⟩ := by
  obtain ⟨word, isText, isWord⟩ := Trie.longest?_eq_some found
  refine ⟨word, isText, isWord, ?_⟩
  have leads : word.length ≤ (subtree.walk after).1.length :=
    Trie.length_le_walk ⟨rest, isText.symm⟩
      (Trie.descend?_of_find? (List.prefix_refl word) (by rw [isWord]; rfl))
  have split := subtree.walk_append after
  generalize (subtree.walk after).1 = walked at refines split leads
  generalize (subtree.walk after).2 = left at refines split
  -- The characters between the end of the word and the place that was reached are given back.
  obtain ⟨given, rfl, rfl⟩ : ∃ given, walked = word ++ given ∧ rest = given ++ left := by
    rw [isText] at split
    rcases List.append_eq_append_iff.mp split with ⟨more, rfl, rfl⟩ | ⟨given, rfl, rfl⟩
    · rw [List.length_append] at leads
      obtain rfl : more = [] := List.length_eq_zero_iff.mp (by omega)
      exact ⟨[], by simp, by simp⟩
    · exact ⟨given, rfl, rfl⟩
  have back := refines.iterate_back given.length
  rw [List.reverse_append, List.append_assoc, Zipper.iterate_back] at back
  rwa [List.length_append, Nat.add_sub_cancel_left]

/-- What scanning gives, as a cursor finds it that stood behind the characters `before`: the same
token or error, with the cursor at the text where scanning goes on. -/
def FoundBy (text : String) (before : List Char) (base : ℕ) (scanned : Scanned)
    (result : Option (Except Error Token × Cursor)) : Prop :=
  ∃ cursor passed, result = some (scanned.item, cursor) ∧
    scanned.position = base + cursor.offset ∧
    Refines text cursor ⟨List.reverse passed ++ before, scanned.rest, before.length⟩

section

variable {trie subtree : Trie α} {base : ℕ} {kind : α → Kind} {newline : Bool}

theorem foundBy_unrecognized (begun : Refines text cursor ⟨char :: before, after, before.length⟩)
    (isChild : trie.child? char = none) :
    FoundBy text before base
      (refuse (base + byteLength before.reverse) (.unrecognizedCharacter char) [char] after)
      (scanUnder trie kind newline base (base + byteLength before.reverse) char cursor) := by
  have passed : Refines text cursor ⟨[char].reverse ++ before, after, before.length⟩ := begun
  refine ⟨cursor, [char], ?_, ?_, passed⟩
  · rw [scanUnder, isChild]
    rfl
  · rw [passed.offset_of_passed]
    exact Nat.add_assoc _ _ _

theorem foundBy_incomplete (begun : Refines text cursor ⟨char :: before, after, before.length⟩)
    (isChild : trie.child? char = some subtree) (isNone : subtree.longest? after = none) :
    let walked := char :: (subtree.walk after).1
    FoundBy text before base
      (refuse (base + byteLength before.reverse) (.incompleteOperator (String.ofList walked)) walked
        (subtree.walk after).2)
      (scanUnder trie kind newline base (base + byteLength before.reverse) char cursor) := by
  intro walked
  have follows := follow_spec begun (Descent.start trie) subtree
  rw [scanUnder, isChild]
  dsimp only
  generalize follow cursor ((Descent.start trie).enter subtree) = reached at follows
  have accepted : reached.2.accepted = none := by
    rw [follows.accepted, isNone]
    rfl
  have passed : Refines text reached.1
      ⟨walked.reverse ++ before, (subtree.walk after).2, before.length⟩ := by
    simpa [walked] using follows.refines
  refine ⟨reached.1, walked, ?_, ?_, passed⟩
  · rw [settle, accepted]
    dsimp only
    rw [passed.slice?_of_passed]
    rfl
  · rw [passed.offset_of_passed]
    exact Nat.add_assoc _ _ _

theorem foundBy_accepted (begun : Refines text cursor ⟨char :: before, after, before.length⟩)
    (isChild : trie.child? char = some subtree) {operator : α} {rest : List Char}
    (found : subtree.longest? after = some (operator, rest)) :
    ∃ word, trie.find? (char :: word) = some operator ∧
      FoundBy text before base
        (accept newline (base + byteLength before.reverse) (kind operator) (char :: word) 0 rest)
        (scanUnder trie kind newline base (base + byteLength before.reverse) char cursor) := by
  have follows := follow_spec begun (Descent.start trie) subtree
  obtain ⟨word, rfl, isWord, refines⟩ := refines_after_back follows.refines found
  refine ⟨word, by rw [Trie.find?, isChild]; exact isWord, ?_⟩
  rw [scanUnder, isChild]
  dsimp only
  generalize follow cursor ((Descent.start trie).enter subtree) = reached at follows refines
  have accepted : reached.2.accepted = some (operator, 1 + word.length) := by
    rw [follows.accepted, found, List.length_append, Option.map_some, Nat.add_sub_cancel]
    rfl
  have scanned : reached.2.scanned = 1 + (subtree.walk (word ++ rest)).1.length := follows.scanned
  have passed : Refines text (Cursor.back^[reached.2.scanned - (1 + word.length)] reached.1)
      ⟨(char :: word).reverse ++ before, rest, before.length⟩ := by
    rw [scanned, Nat.add_sub_add_left]
    simpa using refines
  refine ⟨_, char :: word, ?_, ?_, passed⟩
  · rw [settle, accepted]
    dsimp only
    rw [passed.slice?_of_passed, passed.offset_of_passed, ← Nat.add_assoc]
    rfl
  · rw [passed.offset_of_passed]
    exact Nat.add_assoc base (byteLength before.reverse) (byteLength (char :: word))

end

/-- A cursor before an operator finds the token, or the error, that scanning gives, and ends at the
text where scanning goes on. -/
theorem foundBy_scanUnder (nonempty : ∀ operator ∈ operators, spelling operator ≠ "")
    (refines : Refines text cursor ⟨before, char :: after, mark⟩) (kind : α → Kind)
    (newline : Bool) (base : ℕ) :
    let trie := operatorTrie spelling operators
    let start := base + cursor.offset
    FoundBy text before base (scanOperator trie spelling kind newline start char after)
      (scanUnder trie kind newline base start char cursor.setMark.next) := by
  intro trie start
  have begun : Refines text cursor.setMark.next ⟨char :: before, after, before.length⟩ :=
    refines.setMark.next
  have longest : trie.longest? (char :: after) = (trie.child? char).bind (·.longest? after) :=
    longest?_operatorTrie_cons nonempty char after
  have isStart : start = base + byteLength before.reverse := congrArg (base + ·) refines.offset
  rw [scanOperator, longest, isStart]
  cases isChild : trie.child? char with
  | none =>
    rw [Trie.walk_of_stuck isChild]
    exact foundBy_unrecognized begun isChild
  | some subtree =>
    rw [Option.bind_some]
    cases found : subtree.longest? after with
    | none =>
      rw [Trie.walk_of_further isChild]
      exact foundBy_incomplete begun isChild found
    | some result =>
      obtain ⟨operator, rest⟩ := result
      obtain ⟨word, isWord, foundBy⟩ := foundBy_accepted begun isChild found
      rwa [← (find?_operatorTrie isWord).2] at foundBy

theorem foundBy_scanUnder_symbol (refines : Refines text cursor ⟨before, char :: after, mark⟩)
    (newline : Bool) (base : ℕ) :
    FoundBy text before base (scanSymbol newline (base + cursor.offset) char after)
      (scanUnder Symbol.trie .symbol newline base (base + cursor.offset) char
        cursor.setMark.next) :=
  foundBy_scanUnder symbols_nonempty refines .symbol newline base

end Scan
end Scriptlet
