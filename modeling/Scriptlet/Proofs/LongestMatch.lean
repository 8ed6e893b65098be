import Mathlib.Data.List.Nodup
import Scriptlet.Proofs.Lexemes

/-!
# Longest match

An operator is scanned by following the text through the tree of the spellings as far as it leads,
and by going back to the last place where a spelling ended. For every table of operators this finds
the longest spelling that the text begins with.

* `length_le_of_longest?`: no longer word of a tree is passed over;
* `length_le_walk`: a text leads no further than it is followed;
* `scansLongest`: what scanning an operator gives, for any table.
-/

namespace Scriptlet

open Text (byteLength)

/-! ## Prefix trees -/

namespace Text
namespace Trie

variable {α : Type} {trie : Trie α} {text word path : List Char}

/-- No word is missed. -/
theorem find?_eq_none_of_longest? (isNone : trie.longest? text = none) (begins : word <+: text) :
    trie.find? word = none := by
  induction text generalizing trie word with
  | nil =>
    obtain ⟨value, children⟩ := trie
    obtain rfl := List.prefix_nil.mp begins
    exact Option.map_eq_none_iff.mp isNone
  | cons char text ih =>
    obtain ⟨value, children⟩ := trie
    rw [longest?] at isNone
    cases word with
    | nil =>
      split at isNone
      · exact Option.map_eq_none_iff.mp (Option.or_eq_none_iff.mp isNone).2
      · exact Option.map_eq_none_iff.mp isNone
    | cons first word =>
      obtain ⟨rfl, behind⟩ := List.cons_prefix_cons.mp begins
      rw [find?]
      split at isNone
      · next subtree isChild =>
        rw [isChild, Option.bind_some]
        exact ih (Option.or_eq_none_iff.mp isNone).1 behind
      · next isChild => rw [isChild, Option.bind_none]

/-- No longer word is passed over. -/
theorem length_le_of_longest? {value : α} {rest : List Char}
    (found : trie.longest? text = some (value, rest)) (begins : word <+: text)
    (isWord : (trie.find? word).isSome) : word.length + rest.length ≤ text.length := by
  induction text generalizing trie word with
  | nil =>
    obtain ⟨here, children⟩ := trie
    obtain ⟨_, -, pair⟩ := Option.map_eq_some_iff.mp found
    cases pair
    exact begins.length_le
  | cons char text ih =>
    cases word with
    | nil =>
      obtain ⟨written, same, -⟩ := longest?_eq_some found
      simp [same]
    | cons first word =>
      obtain ⟨rfl, behind⟩ := List.cons_prefix_cons.mp begins
      obtain ⟨here, children⟩ := trie
      cases isChild : (Trie.node here children).child? first with
      | none =>
        rw [find?, isChild] at isWord
        cases isWord
      | some subtree =>
        rw [find?, isChild, Option.bind_some] at isWord
        rw [longest?, isChild] at found
        -- the subtree has a word for the text, so the value that stands here is not taken
        cases below : subtree.longest? text with
        | none =>
          rw [find?_eq_none_of_longest? below behind] at isWord
          cases isWord
        | some result =>
          have same : result = (value, rest) := by simpa [below] using found
          rw [same] at below
          have shorter := ih below behind isWord
          simp only [List.length_cons]
          omega

/-! ### Following a text -/

theorem walk_append (trie : Trie α) (text : List Char) :
    (trie.walk text).1 ++ (trie.walk text).2 = text := by
  fun_induction walk trie text with
  | case1 => rfl
  | case2 trie char rest subtree isChild walked after same ih =>
    rw [same] at ih
    exact congrArg (char :: ·) ih
  | case3 => rfl

theorem descend?_walk (trie : Trie α) (text : List Char) :
    (trie.descend? (trie.walk text).1).isSome := by
  fun_induction walk trie text with
  | case1 => rfl
  | case2 trie char rest subtree isChild walked after same ih =>
    rw [same] at ih
    rw [descend?, isChild]
    exact ih
  | case3 => rfl

/-- A text leads no further than it is followed. -/
theorem length_le_walk (begins : path <+: text) (leads : (trie.descend? path).isSome) :
    path.length ≤ (trie.walk text).1.length := by
  induction text generalizing trie path with
  | nil => exact begins.length_le
  | cons char text ih =>
    cases path with
    | nil => exact Nat.zero_le _
    | cons first path =>
      obtain ⟨rfl, behind⟩ := List.cons_prefix_cons.mp begins
      cases isChild : trie.child? first with
      | none =>
        rw [descend?, isChild] at leads
        cases leads
      | some subtree =>
        rw [descend?, isChild, Option.bind_some] at leads
        rw [walk, isChild]
        exact Nat.succ_le_succ (ih behind leads)

theorem descend?_of_find? (begins : path <+: word) (isWord : (trie.find? word).isSome) :
    (trie.descend? path).isSome := by
  induction word generalizing trie path with
  | nil =>
    obtain rfl := List.prefix_nil.mp begins
    rfl
  | cons char word ih =>
    cases path with
    | nil => rfl
    | cons first path =>
      obtain ⟨rfl, behind⟩ := List.cons_prefix_cons.mp begins
      cases isChild : trie.child? first with
      | none =>
        rw [find?, isChild] at isWord
        cases isWord
      | some subtree =>
        rw [find?, isChild, Option.bind_some] at isWord
        rw [descend?, isChild]
        exact ih behind isWord

end Trie
end Text

/-! ## Operators -/

namespace Scan

variable {α : Type}

/-- The tree of a table of operators. -/
def operatorTrie (spelling : α → String) (operators : List α) : Text.Trie α :=
  .ofTable (operators.map fun operator => (spelling operator, operator))

/-- The operator with the longest spelling that a text begins with, and the text after it. -/
structure IsLongest (spelling : α → String) (operators : List α) (text : List Char)
    (operator : α) (rest : List Char) : Prop where
  member : operator ∈ operators
  written : text = (spelling operator).toList ++ rest
  longest : ∀ other ∈ operators, (spelling other).toList <+: text →
    (spelling other).toList.length ≤ (spelling operator).toList.length

/-- The longest beginning of a text that is also the beginning of a spelling. -/
structure IsBroken (spelling : α → String) (operators : List α) (text begun rest : List Char) :
    Prop where
  begins : ∃ operator ∈ operators, begun <+: (spelling operator).toList
  written : text = begun ++ rest
  longest : ∀ longer, longer <+: text →
    (∃ operator ∈ operators, longer <+: (spelling operator).toList) → longer.length ≤ begun.length

/-- What scanning gives for a text that begins as some operator does. -/
structure ScansLongest (spelling : α → String) (kind : α → Kind) (operators : List α)
    (newline : Bool) (start : Nat) (text : List Char) (scanned : Scanned) : Prop where
  /-- If the text begins with a spelling, then with a longest one. -/
  exists_longest : (∃ operator ∈ operators, (spelling operator).toList <+: text) →
    ∃ operator rest, IsLongest spelling operators text operator rest
  /-- The token of that operator takes up its spelling and nothing else. -/
  accepts : ∀ operator rest, IsLongest spelling operators text operator rest →
    scanned = ⟨.ok ⟨kind operator, spelling operator, start,
      start + byteLength (spelling operator).toList, newline⟩, rest,
      start + byteLength (spelling operator).toList⟩
  /-- Scanning fails just if the text begins with no spelling. -/
  fails : (∃ error, scanned.item = .error error) ↔
    ∀ operator ∈ operators, ¬ (spelling operator).toList <+: text
  /-- The error tells how far the text is the beginning of a spelling. -/
  refuses : (∀ operator ∈ operators, ¬ (spelling operator).toList <+: text) →
    ∃ begun rest, IsBroken spelling operators text begun rest ∧
      scanned = ⟨.error (.lexical (.incompleteOperator (String.ofList begun)) start), rest,
        start + byteLength begun⟩
  /-- Either way a character is passed. -/
  advances : start < scanned.position

variable {spelling : α → String} {operators : List α} {text rest rest' : List Char}
  {operator operator' : α}

/-- Different operators are not both longest, unless they are written alike. -/
theorem IsLongest.unique (distinct : (operators.map spelling).Nodup)
    (isLongest : IsLongest spelling operators text operator rest)
    (isLongest' : IsLongest spelling operators text operator' rest') :
    operator = operator' ∧ rest = rest' := by
  have begins : (spelling operator).toList <+: text := ⟨rest, isLongest.written.symm⟩
  have begins' : (spelling operator').toList <+: text := ⟨rest', isLongest'.written.symm⟩
  have lengths : (spelling operator).toList.length = (spelling operator').toList.length :=
    Nat.le_antisymm (isLongest'.longest operator isLongest.member begins)
      (isLongest.longest operator' isLongest'.member begins')
  obtain ⟨spelled, rests⟩ :=
    List.append_inj (isLongest.written.symm.trans isLongest'.written) lengths
  exact ⟨List.inj_on_of_nodup_map distinct isLongest.member isLongest'.member
    (String.toList_inj.mp spelled), rests⟩

theorem find?_operatorTrie {word : List Char}
    (found : (operatorTrie spelling operators).find? word = some operator) :
    operator ∈ operators ∧ (spelling operator).toList = word := by
  obtain ⟨entry, member, spelled, rfl⟩ := Text.Trie.find?_ofTable found
  obtain ⟨operator, member', rfl⟩ := List.mem_map.mp member
  exact ⟨member', spelled⟩

theorem isSome_find?_operatorTrie (member : operator ∈ operators) :
    ((operatorTrie spelling operators).find? (spelling operator).toList).isSome :=
  Text.Trie.find?_ofTable_isSome (List.mem_map.mpr ⟨operator, member, rfl⟩)

/-- The tree finds an operator with the longest spelling. -/
theorem isLongest_of_longest?
    (found : (operatorTrie spelling operators).longest? text = some (operator, rest)) :
    IsLongest spelling operators text operator rest := by
  obtain ⟨word, rfl, isWord⟩ := Text.Trie.longest?_eq_some found
  obtain ⟨member, rfl⟩ := find?_operatorTrie isWord
  refine ⟨member, rfl, fun other member' begins => ?_⟩
  have shorter := Text.Trie.length_le_of_longest? found begins (isSome_find?_operatorTrie member')
  rw [List.length_append] at shorter
  omega

theorem not_prefix_of_longest? (isNone : (operatorTrie spelling operators).longest? text = none)
    (member : operator ∈ operators) : ¬ (spelling operator).toList <+: text := by
  intro begins
  have isWord : ((operatorTrie spelling operators).find? (spelling operator).toList).isSome :=
    isSome_find?_operatorTrie member
  rw [Text.Trie.find?_eq_none_of_longest? isNone begins] at isWord
  cases isWord

variable {char : Char}

theorem descend?_operatorTrie {path : List Char}
    (begins : ∃ operator ∈ operators, path <+: (spelling operator).toList) :
    ((operatorTrie spelling operators).descend? path).isSome := by
  obtain ⟨operator, member, begins⟩ := begins
  exact Text.Trie.descend?_of_find? begins (isSome_find?_operatorTrie member)

theorem walk_ne_nil
    (begins : ∃ operator ∈ operators, (spelling operator).toList.head? = some char)
    (text : List Char) : ((operatorTrie spelling operators).walk (char :: text)).1 ≠ [] := by
  obtain ⟨operator, member, isFirst⟩ := begins
  obtain ⟨more, spelled⟩ := List.head?_eq_some_iff.mp isFirst
  have leads : ((operatorTrie spelling operators).descend? [char]).isSome :=
    descend?_operatorTrie ⟨operator, member, more, spelled.symm⟩
  have follows := Text.Trie.length_le_walk ⟨text, rfl⟩ leads
  exact List.length_pos_iff.mp follows

/-- The text is followed as far as it is the beginning of a spelling. -/
theorem isBroken_walk
    (begins : ∃ operator ∈ operators, (spelling operator).toList.head? = some char)
    (text : List Char) :
    IsBroken spelling operators (char :: text)
      ((operatorTrie spelling operators).walk (char :: text)).1
      ((operatorTrie spelling operators).walk (char :: text)).2 where
  begins := by
    have leads := (operatorTrie spelling operators).descend?_walk (char :: text)
    obtain ⟨subtree, leads⟩ := Option.isSome_iff_exists.mp leads
    rcases Text.Trie.descend?_ofTable leads with isNil | ⟨entry, member, begins'⟩
    · exact absurd isNil (walk_ne_nil begins text)
    · obtain ⟨operator, member', rfl⟩ := List.mem_map.mp member
      exact ⟨operator, member', begins'⟩
  written := (Text.Trie.walk_append _ _).symm
  longest longer begins' isBeginning :=
    Text.Trie.length_le_walk begins' (descend?_operatorTrie isBeginning)

section

variable (kind : α → Kind) (newline : Bool) (start : Nat)

theorem scanOperator_of_longest?
    (found : (operatorTrie spelling operators).longest? (char :: text) = some (operator, rest)) :
    scanOperator (operatorTrie spelling operators) spelling kind newline start char text =
      ⟨.ok ⟨kind operator, spelling operator, start,
        start + byteLength (spelling operator).toList, newline⟩, rest,
        start + byteLength (spelling operator).toList⟩ := by
  rw [scanOperator, found]
  dsimp only [accept]
  rw [String.ofList_toList, Nat.add_zero]

theorem scanOperator_of_none
    (begins : ∃ operator ∈ operators, (spelling operator).toList.head? = some char)
    (isNone : (operatorTrie spelling operators).longest? (char :: text) = none) :
    ∃ begun rest, begun ≠ [] ∧ IsBroken spelling operators (char :: text) begun rest ∧
      scanOperator (operatorTrie spelling operators) spelling kind newline start char text =
        ⟨.error (.lexical (.incompleteOperator (String.ofList begun)) start), rest,
          start + byteLength begun⟩ := by
  have some := walk_ne_nil begins text
  refine ⟨_, _, some, isBroken_walk begins text, ?_⟩
  rw [scanOperator, isNone]
  dsimp only
  split
  · next walked =>
    rw [walked] at some
    exact absurd rfl some
  · next walked =>
    rw [walked]
    rfl

/-- Scanning an operator finds the longest spelling, whatever the table is. -/
theorem scansLongest (distinct : (operators.map spelling).Nodup)
    (nonempty : ∀ operator ∈ operators, spelling operator ≠ "")
    (begins : ∃ operator ∈ operators, (spelling operator).toList.head? = some char)
    (text : List Char) :
    ScansLongest spelling kind operators newline start (char :: text)
      (scanOperator (operatorTrie spelling operators) spelling kind newline start char text) := by
  cases found : (operatorTrie spelling operators).longest? (char :: text) with
  | some result =>
    obtain ⟨operator, rest⟩ := result
    have isLongest := isLongest_of_longest? found
    have written : (spelling operator).toList <+: char :: text := ⟨rest, isLongest.written.symm⟩
    have spelled : (spelling operator).toList ≠ [] :=
      fun isNil => nonempty operator isLongest.member (String.toList_eq_nil_iff.mp isNil)
    rw [scanOperator_of_longest? kind newline start found]
    constructor
    · exact fun _ => ⟨operator, rest, isLongest⟩
    · intro operator' rest' isLongest'
      obtain ⟨rfl, rfl⟩ := isLongest.unique distinct isLongest'
      rfl
    · exact ⟨nofun, fun none => absurd written (none operator isLongest.member)⟩
    · exact fun none => absurd written (none operator isLongest.member)
    · exact Nat.lt_add_of_pos_right (Text.byteLength_pos spelled)
  | none =>
    obtain ⟨begun, rest, some, isBroken, scanned⟩ :=
      scanOperator_of_none kind newline start begins found
    have none : ∀ operator ∈ operators, ¬ (spelling operator).toList <+: char :: text :=
      fun operator member => not_prefix_of_longest? found member
    rw [scanned]
    constructor
    · exact fun ⟨operator, member, written⟩ => absurd written (none operator member)
    · exact fun operator rest isLongest =>
        absurd ⟨rest, isLongest.written.symm⟩ (none operator isLongest.member)
    · exact ⟨fun _ => none, fun _ => ⟨_, rfl⟩⟩
    · exact fun _ => ⟨begun, rest, isBroken, rfl⟩
    · exact Nat.lt_add_of_pos_right (Text.byteLength_pos some)

end

/-! ## Symbols -/

/-- Every symbol begins with a symbol of one character. -/
theorem single_symbol {symbol : Symbol} (begins : symbol.spelling.toList.head? = some char) :
    ∃ single ∈ Symbol.all, single.spelling.toList = [char] := by
  have each : Symbol.all.all (fun symbol => Symbol.all.any fun single =>
      single.spelling.toList == symbol.spelling.toList.take 1) = true := by decide +kernel
  obtain ⟨more, spelled⟩ := List.head?_eq_some_iff.mp begins
  have first := List.all_eq_true.mp each symbol (symbol_mem_all symbol)
  obtain ⟨single, member, same⟩ := List.any_eq_true.mp first
  rw [spelled] at same
  exact ⟨single, member, eq_of_beq same⟩

theorem symbols_distinct : (Symbol.all.map Symbol.spelling).Nodup := by
  decide +kernel

theorem symbols_nonempty : ∀ symbol ∈ Symbol.all, symbol.spelling ≠ "" := by
  decide +kernel

/-- A text that begins as some symbol does begins with a symbol. -/
theorem scanSymbol_accepts (newline : Bool) (start : Nat)
    (begins : ∃ symbol : Symbol, symbol.spelling.toList.head? = some char) (text : List Char) :
    ∃ symbol rest, IsLongest Symbol.spelling Symbol.all (char :: text) symbol rest ∧
      scanSymbol newline start char text =
        ⟨.ok ⟨.symbol symbol, symbol.spelling, start, start + byteLength symbol.spelling.toList,
          newline⟩, rest, start + byteLength symbol.spelling.toList⟩ := by
  obtain ⟨symbol, begins⟩ := begins
  obtain ⟨single, member, spelled⟩ := single_symbol begins
  have scans := scansLongest .symbol newline start symbols_distinct symbols_nonempty
    ⟨symbol, symbol_mem_all symbol, begins⟩ text
  have written : single.spelling.toList <+: char :: text := ⟨text, by rw [spelled]; rfl⟩
  obtain ⟨symbol, rest, isLongest⟩ := scans.exists_longest ⟨single, member, written⟩
  exact ⟨symbol, rest, isLongest, scans.accepts symbol rest isLongest⟩

/-- Operators are scanned by longest match. For every table of different spellings that are not
empty, and every text that begins as one of them does, the token is that of the longest spelling
that the text begins with, and scanning goes on right after it; there is an error just if there is
no such spelling, which the symbols of the language rule out. -/
theorem operators_match_longest :
    (∀ {α : Type} (spelling : α → String) (kind : α → Kind) (operators : List α),
      (operators.map spelling).Nodup → (∀ operator ∈ operators, spelling operator ≠ "") →
      ∀ (newline : Bool) (start : Nat) (char : Char) (text : List Char),
        (∃ operator ∈ operators, (spelling operator).toList.head? = some char) →
        ScansLongest spelling kind operators newline start (char :: text)
          (scanOperator (operatorTrie spelling operators) spelling kind newline start char text)) ∧
    ∀ (newline : Bool) (start : Nat) (char : Char) (text : List Char),
      (∃ symbol : Symbol, symbol.spelling.toList.head? = some char) →
      ∃ symbol rest, IsLongest Symbol.spelling Symbol.all (char :: text) symbol rest ∧
        scanSymbol newline start char text =
          ⟨.ok ⟨.symbol symbol, symbol.spelling, start, start + byteLength symbol.spelling.toList,
            newline⟩, rest, start + byteLength symbol.spelling.toList⟩ :=
  ⟨fun _ kind _ distinct nonempty newline start _ text begins =>
      scansLongest kind newline start distinct nonempty begins text,
    fun newline start _ text begins => scanSymbol_accepts newline start begins text⟩

/-- Three characters are given back where a long spelling breaks off. -/
example :
    (scanOperator (operatorTrie id ["a", "aéaé="]) id (fun _ => .identifier) false 0 'a'
        "éaéb".toList).rest = "éaéb".toList ∧
      (scanSymbol false 0 '.' "..x".toList).rest = ['x'] ∧
      (scanSymbol false 0 '.' ".x".toList).rest = ['.', 'x'] := by
  decide +kernel

end Scan
end Scriptlet
