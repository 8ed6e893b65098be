import Mathlib.Data.List.TakeWhile
import Scriptlet.Number.Decimal
import Scriptlet.Token.Scan

/-!
# What scanning returns

A text is scanned piece by piece, and each piece begins where the one before it ended.

* `longest?_ofTable`: a prefix tree finds words of its table only;
* `skipGap_ends`: white space and comments are passed over without losing count of bytes;
* `scanNext_follows`: every piece takes up a part of the text, and its offsets are on
  boundaries of characters;
* `scanAll_eq`: a scanned text ends with the end of the input and has it nowhere else.
-/

namespace Scriptlet

/-! ## Prefix trees -/

namespace Text
namespace Trie

variable {α : Type}

/-- The value of a word. -/
def find? : Trie α → List Char → Option α
  | .node value _, [] => value
  | trie, char :: rest => (trie.child? char).bind fun subtree => subtree.find? rest

theorem longest?_eq_some {trie : Trie α} {text rest : List Char} {value : α}
    (found : trie.longest? text = some (value, rest)) :
    ∃ word, text = word ++ rest ∧ trie.find? word = some value := by
  induction text generalizing trie with
  | nil =>
    obtain ⟨here, children⟩ := trie
    obtain ⟨_, same, pair⟩ := Option.map_eq_some_iff.mp found
    cases pair
    exact ⟨[], rfl, same⟩
  | cons char text ih =>
    obtain ⟨here, children⟩ := trie
    have atRoot : (here.map fun value => (value, char :: text)) = some (value, rest) →
        ∃ word, char :: text = word ++ rest ∧
          (Trie.node here children).find? word = some value := by
      intro found
      obtain ⟨_, same, pair⟩ := Option.map_eq_some_iff.mp found
      cases pair
      exact ⟨[], rfl, same⟩
    rw [longest?] at found
    split at found
    · next subtree isChild =>
      rcases Option.or_eq_some_iff.mp found with below | ⟨_, here⟩
      · obtain ⟨word, rfl, same⟩ := ih below
        refine ⟨char :: word, rfl, ?_⟩
        rw [find?, isChild]
        exact same
      · exact atRoot here
    · exact atRoot found

theorem child?_setChild (here : Option α) (children : List (Char × Trie α)) (char other : Char)
    (subtree : Trie α) :
    (Trie.node here (setChild children char subtree)).child? other =
      if other = char then some subtree else (Trie.node here children).child? other := by
  induction children with
  | nil =>
    by_cases same : other = char
    · simp [setChild, child?, same]
    · simp [setChild, child?, same, Ne.symm same]
  | cons entry rest ih =>
    obtain ⟨key, old⟩ := entry
    simp only [child?] at ih ⊢
    by_cases isKey : key = char
    · subst isKey
      by_cases same : other = key
      · simp [setChild, same]
      · simp [setChild, same, Ne.symm same]
    · by_cases same : key = other
      · subst same
        simp [setChild, isKey]
      · simp [setChild, isKey, same, ih]

theorem find?_insert (word other : List Char) (value : α) (trie : Trie α) :
    (trie.insert word value).find? other =
      if other = word then some value else trie.find? other := by
  induction word generalizing trie other with
  | nil =>
    obtain ⟨here, children⟩ := trie
    cases other <;> simp [insert, find?, child?]
  | cons char rest ih =>
    obtain ⟨here, children⟩ := trie
    cases other with
    | nil => simp [insert, find?]
    | cons first others =>
      simp only [insert, find?, child?_setChild]
      by_cases same : first = char
      · subst same
        rw [if_pos rfl, Option.bind_some, ih]
        by_cases tail : others = rest
        · simp [tail]
        · rw [if_neg tail, if_neg (by simp [tail])]
          cases (Trie.node here children).child? first with
          | none => cases others <;> simp [empty, find?, child?]
          | some subtree => rfl
      · rw [if_neg same, if_neg (by simp [same])]

theorem find?_ofTable {table : List (String × α)} {word : List Char} {value : α}
    (found : (ofTable table).find? word = some value) :
    ∃ entry ∈ table, entry.1.toList = word ∧ entry.2 = value := by
  suffices main : ∀ (table : List (String × α)) (trie : Trie α),
      (table.foldl (fun trie entry => trie.insert entry.1.toList entry.2) trie).find? word =
        some value →
      trie.find? word = some value ∨ ∃ entry ∈ table, entry.1.toList = word ∧ entry.2 = value by
    rcases main table empty found with no | yes
    · cases word <;> cases no
    · exact yes
  intro table
  induction table with
  | nil => exact fun trie found => .inl found
  | cons entry rest ih =>
    intro trie found
    rcases ih _ found with inserted | ⟨later, member, same⟩
    · rw [find?_insert] at inserted
      split at inserted
      · next same => exact .inr ⟨entry, by simp, same.symm, Option.some.inj inserted⟩
      · exact .inl inserted
    · exact .inr ⟨later, List.mem_cons_of_mem entry member, same⟩

/-- A prefix tree has a value for every word of its table. -/
theorem find?_ofTable_isSome {table : List (String × α)} {entry : String × α}
    (member : entry ∈ table) : ((ofTable table).find? entry.1.toList).isSome := by
  suffices main : ∀ (table : List (String × α)) (trie : Trie α),
      (trie.find? entry.1.toList).isSome ∨ entry ∈ table →
      ((table.foldl (fun trie entry => trie.insert entry.1.toList entry.2) trie).find?
        entry.1.toList).isSome from main table empty (.inr member)
  intro table
  induction table with
  | nil => exact fun trie found => found.resolve_right List.not_mem_nil
  | cons first rest ih =>
    intro trie found
    refine ih _ ?_
    rw [find?_insert]
    by_cases same : entry.1.toList = first.1.toList
    · simp [same]
    · rw [if_neg same]
      refine found.imp_right fun member => (List.mem_cons.mp member).resolve_left ?_
      rintro rfl
      exact same rfl

/-- A prefix tree finds words of its table only. -/
theorem longest?_ofTable {table : List (String × α)} {text rest : List Char} {value : α}
    (found : (ofTable table).longest? text = some (value, rest)) :
    ∃ entry ∈ table, text = entry.1.toList ++ rest ∧ entry.2 = value := by
  obtain ⟨word, rfl, same⟩ := longest?_eq_some found
  obtain ⟨entry, member, rfl, rfl⟩ := find?_ofTable same
  exact ⟨entry, member, rfl, rfl⟩

/-- The value of the word that ends here. -/
def value? : Trie α → Option α
  | .node value _ => value

/-- The subtrees with the characters that lead to them. -/
def children : Trie α → List (Char × Trie α)
  | .node _ children => children

theorem longest?_isSome {trie : Trie α} (text : List Char) (here : trie.value?.isSome) :
    (trie.longest? text).isSome := by
  obtain ⟨value, children⟩ := trie
  obtain ⟨value, rfl⟩ := Option.isSome_iff_exists.mp here
  cases text with
  | nil => rfl
  | cons char rest =>
    rw [longest?]
    split <;> simp

/-- Where every single character that leads on is a word by itself, a text that no word
begins with leads nowhere. -/
theorem walk_eq_nil {trie : Trie α} (single : ∀ entry ∈ trie.children, entry.2.value?.isSome)
    {text : List Char} (none : trie.longest? text = none) : (trie.walk text).1 = [] := by
  cases text with
  | nil => rfl
  | cons char rest =>
    cases isChild : trie.child? char with
    | none => rw [walk, isChild]
    | some subtree =>
      obtain ⟨here, children⟩ := trie
      obtain ⟨entry, found, rfl⟩ := Option.map_eq_some_iff.mp isChild
      have below := longest?_isSome rest (single entry (List.mem_of_find?_eq_some found))
      obtain ⟨found, same⟩ := Option.isSome_iff_exists.mp below
      simp [longest?, isChild, same] at none

end Trie

/-! ## Boundaries of characters -/

/-- Whether a byte offset is between two characters, or at an end, of a text that begins at
offset `base`. -/
def Boundary (base : Nat) (text : List Char) (position : Nat) : Prop :=
  ∃ before after, text = before ++ after ∧ position = base + byteLength before

theorem Boundary.atStart (base : Nat) (text : List Char) : Boundary base text base :=
  ⟨[], text, rfl, rfl⟩

theorem Boundary.atEnd (base : Nat) (text : List Char) :
    Boundary base text (base + byteLength text) :=
  ⟨text, [], by simp, rfl⟩

theorem Boundary.within {base position : Nat} {before text after : List Char}
    (boundary : Boundary (base + byteLength before) text position) :
    Boundary base (before ++ text ++ after) position := by
  obtain ⟨first, second, rfl, rfl⟩ := boundary
  exact ⟨before ++ first, second ++ after, by simp, by rw [byteLength_append]; omega⟩

theorem Boundary.cons {base position : Nat} {char : Char} {rest : List Char}
    (boundary : Boundary (base + char.utf8Size) rest position) :
    Boundary base (char :: rest) position := by
  obtain ⟨before, after, rfl, rfl⟩ := boundary
  exact ⟨char :: before, after, rfl, by rw [byteLength_cons]; omega⟩

theorem Boundary.bounds {base position : Nat} {text : List Char}
    (boundary : Boundary base text position) :
    base ≤ position ∧ position ≤ base + byteLength text := by
  obtain ⟨before, after, rfl, rfl⟩ := boundary
  rw [byteLength_append]
  omega

end Text

open Text (Boundary byteLength)

namespace Scan

/-! ## White space and comments -/

/-- Where a block comment began that is still open. -/
def Layer.start? : Layer → Option Nat
  | .opening start | .block start _ => some start
  | .blank | .line => none

/-- Whether a gap ends at a place of the text, which begins at `position`; `started` is
where a comment began that was open before. -/
def Gap.Ends (started : Option Nat) (position : Nat) (text : List Char) : Gap → Prop
  | .token _ start char rest =>
    ∃ skipped, text = skipped ++ char :: rest ∧ start = position + byteLength skipped
  | .stop _ final => final = position + byteLength text
  | .unterminated start final =>
    final = position + byteLength text ∧ (started = some start ∨ Boundary position text start)

theorem Gap.Ends.cons {before after : Option Nat} {position : Nat} {char : Char}
    {rest : List Char} {gap : Gap} (ends : gap.Ends after (position + char.utf8Size) rest)
    (opened : ∀ start, after = some start →
      before = some start ∨ Boundary position (char :: rest) start) :
    gap.Ends before position (char :: rest) := by
  cases gap with
  | token newline start next rest =>
    obtain ⟨skipped, rfl, rfl⟩ := ends
    exact ⟨char :: skipped, rfl, by rw [Text.byteLength_cons]; omega⟩
  | stop newline stop =>
    change stop = _ at ends
    change stop = _
    rw [ends, Text.byteLength_cons]; omega
  | unterminated start stop =>
    obtain ⟨rfl, place⟩ := ends
    refine ⟨by rw [Text.byteLength_cons]; omega, ?_⟩
    rcases place with isOpen | boundary
    · exact opened start isOpen
    · exact .inr boundary.cons

/-- A gap ends at a place of the text. A comment that opens has its asterisk next. -/
theorem skipGap_ends (layer : Layer) (newline : Bool) (position : Nat) (text : List Char)
    (ready : ∀ start, layer = .opening start → text.head? = some '*') :
    (skipGap layer newline position text).Ends layer.start? position text := by
  induction text generalizing layer newline position with
  | nil =>
    cases layer with
    | blank | line => exact rfl
    | opening start | block start star => exact ⟨rfl, .inl rfl⟩
  | cons char rest ih =>
    cases layer with
    | blank =>
      rw [skipGap]
      split
      · exact (ih .blank _ _ nofun).cons fun _ isOpen => by cases isOpen
      · split
        · next slashes =>
          obtain ⟨isSlash, _⟩ := (Bool.and_eq_true _ _).mp slashes
          obtain rfl : char = '/' := by simpa using isSlash
          exact (ih .line newline (position + 1) nofun).cons fun _ isOpen => by cases isOpen
        · split
          · next opens =>
            obtain ⟨isSlash, isStar⟩ := (Bool.and_eq_true _ _).mp opens
            obtain rfl : char = '/' := by simpa using isSlash
            -- The comment opens here, so an error that it never closes is at this place.
            refine (ih (.opening position) newline (position + 1) ?_).cons ?_
            · intro _ _; simpa using isStar
            · rintro start ⟨⟩
              exact .inr (.atStart position _)
          · exact ⟨[], rfl, rfl⟩
    | line =>
      rw [skipGap]
      split
      · next isBreak =>
        obtain rfl : char = '\n' := by simpa using isBreak
        exact (ih .blank true (position + 1) nofun).cons fun _ isOpen => by cases isOpen
      · exact (ih .line newline _ nofun).cons fun _ isOpen => by cases isOpen
    | opening start =>
      obtain rfl : char = '*' := by simpa using ready start rfl
      exact (ih (.block start false) newline (position + 1) nofun).cons fun _ => .inl
    | block start star =>
      rw [skipGap]
      split
      · next closes =>
        obtain ⟨_, isSlash⟩ := (Bool.and_eq_true _ _).mp closes
        obtain rfl : char = '/' := by simpa using isSlash
        exact (ih .blank newline (position + 1) nofun).cons fun _ isOpen => by cases isOpen
      · exact (ih (.block start (char == '*')) _ _ nofun).cons fun _ => .inl

/-! ## Tokens -/

end Scan

/-- What is known of a token of a text that begins at offset `base`. -/
structure Token.From (base : Nat) (text : List Char) (token : Token) : Prop where
  start : Boundary base text token.start
  stop : Boundary base text token.stop
  truth : token.kind = .boolean → token.lexeme = "true" ∨ token.lexeme = "false"
  number : token.kind = .number → (Number.Decimal.read? token.lexeme.toList).isSome
  template : token.kind = .template → ∃ before after,
    text = before ++ '`' :: (token.lexeme.toList ++ '`' :: after) ∧
      token.start = base + byteLength before

/-- What is known of an error of scanning: it is at a place of the text, and it is none of
those that a token would have to be cut off for. -/
def Error.FromScan (base : Nat) (text : List Char) : Error → Prop
  | .lexical fault position =>
    fault ≠ .invalidNumber ∧ (∀ walked, fault ≠ .incompleteOperator walked) ∧
      Boundary base text position
  | _ => False

theorem Token.From.within {base : Nat} {before text after : List Char} {token : Token}
    (known : token.From (base + byteLength before) text) :
    token.From base (before ++ text ++ after) := by
  refine ⟨known.start.within, known.stop.within, known.truth, known.number, ?_⟩
  intro isTemplate
  obtain ⟨first, second, rfl, same⟩ := known.template isTemplate
  refine ⟨before ++ first, second ++ after, by simp, ?_⟩
  rw [same, Text.byteLength_append]
  omega

theorem Error.FromScan.within {base : Nat} {before text after : List Char} {error : Error}
    (known : error.FromScan (base + byteLength before) text) :
    error.FromScan base (before ++ text ++ after) := by
  cases error with
  | lexical fault position => exact ⟨known.1, known.2.1, known.2.2.within⟩
  | _ => exact known

namespace Scan

/-- What is known of one piece of a text. -/
def ItemFrom (base : Nat) (text : List Char) : Except Error Token → Prop
  | .ok token => token.From base text
  | .error error => error.FromScan base text

theorem ItemFrom.within {base : Nat} {before text after : List Char}
    {item : Except Error Token} (known : ItemFrom (base + byteLength before) text item) :
    ItemFrom base (before ++ text ++ after) item := by
  cases item with
  | ok token => exact Token.From.within known
  | error error => exact Error.FromScan.within known

/-- Whether a piece and the text after it are those of a text that begins at `position`. A
piece that is not the end takes up a character. -/
structure Scanned.Follows (position : Nat) (text : List Char) (scanned : Scanned) : Prop where
  item : ItemFrom position text scanned.item
  rest : ∃ consumed, text = consumed ++ scanned.rest ∧
    scanned.position = position + byteLength consumed ∧
    (isEnd scanned.item = false → consumed ≠ [])

theorem Scanned.Follows.after {position : Nat} {skipped text : List Char} {scanned : Scanned}
    (follows : scanned.Follows (position + byteLength skipped) text) :
    scanned.Follows position (skipped ++ text) := by
  obtain ⟨item, consumed, rfl, same, some⟩ := follows
  refine ⟨?_, skipped ++ consumed, by simp, ?_, fun more => by simp [some more]⟩
  · have wide : ItemFrom position (skipped ++ (consumed ++ scanned.rest) ++ []) scanned.item :=
      item.within
    simpa using wide
  · rw [same, Text.byteLength_append]
    omega

/-- A token that is written as `consumed` with the quotes around it. -/
theorem accept_follows {newline : Bool} {start quotes : Nat} {kind : Kind}
    {lexeme consumed rest : List Char}
    (length : byteLength consumed = byteLength lexeme + quotes) (some : consumed ≠ [])
    (truth : kind = .boolean → String.ofList lexeme = "true" ∨ String.ofList lexeme = "false")
    (number : kind = .number → (Number.Decimal.read? lexeme).isSome)
    (template : kind = .template → consumed = '`' :: (lexeme ++ ['`'])) :
    (accept newline start kind lexeme quotes rest).Follows start (consumed ++ rest) := by
  have total : start + byteLength lexeme + quotes = start + byteLength consumed := by
    rw [length, Nat.add_assoc]
  refine ⟨⟨.atStart start _, ⟨consumed, rest, rfl, total⟩, truth, ?_, ?_⟩,
    consumed, rfl, total, fun _ => some⟩
  · intro isNumber
    have := number isNumber
    simpa [accept] using this
  · intro isTemplate
    have same := template isTemplate
    exact ⟨[], rest, by simp [same], rfl⟩

theorem refuse_follows {start : Nat} {fault : LexicalFault} {consumed rest : List Char}
    (some : consumed ≠ []) (known : fault ≠ .invalidNumber)
    (whole : ∀ walked, fault ≠ .incompleteOperator walked) :
    (refuse start fault consumed rest).Follows start (consumed ++ rest) :=
  ⟨⟨known, whole, .atStart start _⟩, consumed, rfl, rfl, fun _ => some⟩

/-! ## Kinds of tokens -/

theorem ofWord_eq_boolean {word : String} (same : Kind.ofWord word = .boolean) :
    word = "true" ∨ word = "false" := by
  unfold Kind.ofWord Kind.reserved? at same
  split at same
  · next isTruth => simpa using isTruth
  · split at same
    · cases same
    · cases known : Keyword.ofSpelling? word with
      | none => rw [known] at same; cases same
      | some keyword => rw [known] at same; cases same

theorem ofWord_ne {word : String} :
    Kind.ofWord word ≠ .number ∧ Kind.ofWord word ≠ .template := by
  unfold Kind.ofWord Kind.reserved?
  split
  · exact ⟨nofun, nofun⟩
  · split
    · exact ⟨nofun, nofun⟩
    · cases Keyword.ofSpelling? word <;> exact ⟨nofun, nofun⟩

/-- Digits end at a point. -/
theorem takeWhile_digits (rest : List Char) {whole : List Char}
    (digits : ∀ digit ∈ whole, Text.isDigit digit) :
    (whole ++ '.' :: rest).takeWhile Text.isDigit = whole ∧
      (whole ++ '.' :: rest).dropWhile Text.isDigit = '.' :: rest := by
  have point : Text.isDigit '.' = false := by decide
  constructor
  · rw [List.takeWhile_append_of_pos digits, List.takeWhile_cons_of_neg (by simp [point]),
      List.append_nil]
  · rw [List.dropWhile_append_of_pos digits, List.dropWhile_cons_of_neg (by simp [point])]

theorem read?_digits {whole : List Char} (digits : ∀ digit ∈ whole, Text.isDigit digit)
    (some : whole ≠ []) : (Number.Decimal.read? whole).isSome := by
  have all : whole.takeWhile Text.isDigit = whole := List.takeWhile_eq_self_iff.mpr digits
  have none : whole.dropWhile Text.isDigit = [] := List.dropWhile_eq_nil_iff.mpr digits
  simp [Number.Decimal.read?, all, none, Number.Decimal.splitFraction, some,
    Number.Decimal.readExponent?]

theorem read?_point {whole fraction : List Char}
    (digits : ∀ digit ∈ whole, Text.isDigit digit)
    (places : ∀ digit ∈ fraction, Text.isDigit digit) (some : whole ≠ []) :
    (Number.Decimal.read? (whole ++ '.' :: fraction)).isSome := by
  obtain ⟨taken, dropped⟩ := takeWhile_digits fraction digits
  have all : fraction.takeWhile Text.isDigit = fraction := List.takeWhile_eq_self_iff.mpr places
  have none : fraction.dropWhile Text.isDigit = [] := List.dropWhile_eq_nil_iff.mpr places
  simp [Number.Decimal.read?, taken, dropped, Number.Decimal.splitFraction, all, none, some,
    Number.Decimal.readExponent?]

/-- The digits of a number are a part of the text, and they can be read. -/
theorem splitNumber_spec {char : Char} (text : List Char) (digit : Text.isDigit char) :
    char :: text = (splitNumber (char :: text)).1 ++ (splitNumber (char :: text)).2 ∧
      (splitNumber (char :: text)).1 ≠ [] ∧
      (Number.Decimal.read? (splitNumber (char :: text)).1).isSome := by
  have whole_split :=
    (List.takeWhile_append_dropWhile : (char :: text).takeWhile Text.isDigit ++ _ = _)
  have some : (char :: text).takeWhile Text.isDigit ≠ [] := by
    rw [List.takeWhile_cons_of_pos digit]
    nofun
  have digits : ∀ place ∈ (char :: text).takeWhile Text.isDigit, Text.isDigit place :=
    fun place member => List.mem_takeWhile_imp member
  unfold splitNumber
  split
  · next next rest dropped =>
    rw [dropped] at whole_split
    split
    · have places : ∀ place ∈ (next :: rest).takeWhile Text.isDigit, Text.isDigit place :=
        fun place member => List.mem_takeWhile_imp member
      refine ⟨?_, by simp, read?_point digits places some⟩
      rw [List.append_assoc, List.cons_append, List.takeWhile_append_dropWhile, whole_split]
    · exact ⟨whole_split.symm, some, read?_digits digits some⟩
  · exact ⟨whole_split.symm, some, read?_digits digits some⟩

theorem symbol_children_value : ∀ entry ∈ Symbol.trie.children, entry.2.value?.isSome := by
  have all : Symbol.trie.children.all (fun entry => entry.2.value?.isSome) = true := by rfl
  exact List.all_eq_true.mp all

theorem scanSymbol_follows (newline : Bool) (start : Nat) (char : Char) (text : List Char) :
    (scanSymbol newline start char text).Follows start (char :: text) := by
  unfold scanSymbol scanOperator
  split
  · next symbol rest found =>
    obtain ⟨entry, member, same, rfl⟩ := Text.Trie.longest?_ofTable found
    obtain ⟨symbol, _, rfl⟩ := List.mem_map.mp member
    rw [same]
    refine accept_follows rfl ?_ nofun nofun nofun
    cases symbol <;> simp [Symbol.spelling]
  · next none =>
    -- Every symbol begins with a symbol of one character, so none breaks off.
    have nowhere := Text.Trie.walk_eq_nil symbol_children_value none
    split
    · show (refuse start (.unrecognizedCharacter char) [char] text).Follows start ([char] ++ text)
      exact refuse_follows (by simp) nofun nofun
    · next walked rest some same =>
      rw [same] at nowhere
      exact absurd nowhere some

/-- A character that ends a text where a class of characters ends. -/
theorem split_dropWhile {inside : Char → Bool} {text rest : List Char} {char : Char}
    (dropped : text.dropWhile inside = char :: rest) :
    text = text.takeWhile inside ++ char :: rest ∧ inside char = false := by
  constructor
  · rw [← dropped, List.takeWhile_append_dropWhile]
  · have := List.head?_dropWhile_not inside text
    rw [dropped] at this
    simpa using this

theorem scanString_follows (newline : Bool) (start : Nat) {quote : Char} (text : List Char)
    (narrow : quote.utf8Size = 1) :
    (scanString newline start quote text).Follows start (quote :: text) := by
  unfold scanString
  dsimp only
  split
  · next dropped =>
    have whole := List.takeWhile_eq_self_iff.mpr (List.dropWhile_eq_nil_iff.mp dropped)
    have follows : (refuse start .unterminatedString (quote :: text) []).Follows start
        (quote :: text ++ []) := refuse_follows (by simp) nofun nofun
    rw [whole]
    simpa using follows
  · next char rest dropped =>
    obtain ⟨same, ended⟩ := split_dropWhile dropped
    generalize text.takeWhile _ = body at same ⊢
    subst same
    split
    · next isQuote =>
      obtain rfl : char = quote := by simpa using isQuote
      have follows : (accept newline start .string body 2 rest).Follows start
          (char :: (body ++ [char]) ++ rest) := by
        refine accept_follows ?_ (by simp) nofun nofun nofun
        rw [Text.byteLength_cons, Text.byteLength_append, Text.byteLength_cons, narrow,
          Text.byteLength_nil]
        omega
      simpa using follows
    · have follows : (refuse start .unterminatedString (quote :: body ++ [char]) rest).Follows
          start (quote :: body ++ [char] ++ rest) := refuse_follows (by simp) nofun nofun
      simpa using follows

theorem scanTemplate_follows (newline : Bool) (start : Nat) (text : List Char) :
    (scanTemplate newline start text).Follows start ('`' :: text) := by
  unfold scanTemplate
  dsimp only
  split
  · next dropped =>
    have whole := List.takeWhile_eq_self_iff.mpr (List.dropWhile_eq_nil_iff.mp dropped)
    have follows : (refuse start .unterminatedTemplate ('`' :: text) []).Follows start
        ('`' :: text ++ []) := refuse_follows (by simp) nofun nofun
    rw [whole]
    simpa using follows
  · next char rest dropped =>
    obtain ⟨same, ended⟩ := split_dropWhile dropped
    obtain rfl : char = '`' := by simpa using ended
    generalize text.takeWhile _ = body at same ⊢
    subst same
    have follows : (accept newline start .template body 2 rest).Follows start
        ('`' :: (body ++ ['`']) ++ rest) := by
      refine accept_follows ?_ (by simp) nofun nofun (fun _ => rfl)
      rw [Text.byteLength_cons, Text.byteLength_append, Text.byteLength_cons, Text.byteLength_nil]
      have : '`'.utf8Size = 1 := by decide
      omega
    simpa using follows

theorem scanToken_follows (newline : Bool) (start : Nat) (char : Char) (text : List Char) :
    (scanToken newline start char text).Follows start (char :: text) := by
  unfold scanToken
  split
  · have follows : (accept newline start
        (.ofWord (String.ofList (char :: text.takeWhile continuesWord)))
        (char :: text.takeWhile continuesWord) 0 (text.dropWhile continuesWord)).Follows start
        (char :: text.takeWhile continuesWord ++ text.dropWhile continuesWord) :=
      accept_follows rfl (by simp) ofWord_eq_boolean (fun same => absurd same ofWord_ne.1)
        (fun same => absurd same ofWord_ne.2)
    rw [List.cons_append, List.takeWhile_append_dropWhile] at follows
    exact follows
  · split
    · next digit =>
      obtain ⟨same, some, reads⟩ := splitNumber_spec text digit
      have follows : (accept newline start .number (splitNumber (char :: text)).1 0
          (splitNumber (char :: text)).2).Follows start
          ((splitNumber (char :: text)).1 ++ (splitNumber (char :: text)).2) :=
        accept_follows rfl some nofun (fun _ => reads) nofun
      rw [← same] at follows
      exact follows
    · split
      · next isQuote =>
        refine scanString_follows newline start text ?_
        rcases (Bool.or_eq_true _ _).mp isQuote with same | same
        · obtain rfl : char = '"' := by simpa using same
          decide
        · obtain rfl : char = '\'' := by simpa using same
          decide
      · split
        · next isTick =>
          obtain rfl : char = '`' := by simpa using isTick
          exact scanTemplate_follows newline start text
        · exact scanSymbol_follows newline start char text

/-! ## Whole texts -/

/-- Every piece takes up a part of the text, and its offsets are places of the text. -/
theorem scanNext_follows (position : Nat) (text : List Char) :
    (scanNext position text).Follows position text := by
  have ends := skipGap_ends .blank false position text nofun
  unfold scanNext
  generalize found : skipGap .blank false position text = gap at ends ⊢
  cases gap with
  | token newline start char rest =>
    obtain ⟨skipped, rfl, rfl⟩ := ends
    exact (scanToken_follows newline _ char rest).after
  | stop newline final =>
    obtain rfl : final = position + byteLength text := ends
    have place := Boundary.atEnd position text
    exact ⟨⟨place, place, nofun, nofun, nofun⟩, text, by simp, rfl, nofun⟩
  | unterminated start final =>
    obtain ⟨rfl, isOpen | place⟩ := ends
    · cases isOpen
    · refine ⟨⟨nofun, nofun, place⟩, text, by simp, rfl, ?_⟩
      rintro _ rfl
      cases found

/-- Every piece of a text is at a place of the text. -/
theorem scanUpTo_from {count position : Nat} {text : List Char} {item : Except Error Token}
    (member : item ∈ scanUpTo count position text) : ItemFrom position text item := by
  induction count generalizing position text with
  | zero => cases member
  | succ count ih =>
    have follows := scanNext_follows position text
    rw [scanUpTo] at member
    split at member
    · obtain rfl := List.mem_singleton.mp member
      exact follows.item
    · rcases List.mem_cons.mp member with rfl | later
      · exact follows.item
      · obtain ⟨consumed, same, place, _⟩ := follows.rest
        have known := ih later
        rw [place] at known
        have wide : ItemFrom position (consumed ++ (scanNext position text).rest ++ []) item :=
          known.within
        rw [List.append_nil, ← same] at wide
        exact wide

/-- Scanning comes to the end of the input, if it is given a round for each character and
one more, and stops there. -/
theorem scanUpTo_eq {count position : Nat} {text : List Char} (enough : text.length < count) :
    ∃ items stop, scanUpTo count position text = items ++ [.ok stop] ∧ stop.kind = .eof ∧
      ∀ token, .ok token ∈ items → token.kind ≠ .eof := by
  induction count generalizing position text with
  | zero => omega
  | succ count ih =>
    rw [scanUpTo]
    split
    · next isLast =>
      cases item : (scanNext position text).item with
      | error error => rw [item] at isLast; cases isLast
      | ok token =>
        rw [item] at isLast
        exact ⟨[], token, rfl, by simpa [isEnd] using isLast, nofun⟩
    · next more =>
      obtain ⟨consumed, same, _, some⟩ := (scanNext_follows position text).rest
      have shorter : (scanNext position text).rest.length < count := by
        have := List.length_pos_iff.mpr (some (by simpa using more))
        have := congrArg List.length same
        rw [List.length_append] at this
        omega
      obtain ⟨items, stop, rest_eq, isStop, inside⟩ := ih shorter
      refine ⟨(scanNext position text).item :: items, stop, by rw [rest_eq]; rfl, isStop, ?_⟩
      intro token member isEof
      rcases List.mem_cons.mp member with first | later
      · rw [← first] at more
        simp [isEnd, isEof] at more
      · exact inside token later isEof

/-- A scanned text ends with the end of the input and has it nowhere else. -/
theorem scanAll_eq (base : Nat) (text : List Char) :
    ∃ items stop, scanAll base text = items ++ [.ok stop] ∧ stop.kind = .eof ∧
      ∀ token, .ok token ∈ items → token.kind ≠ .eof :=
  scanUpTo_eq (Nat.lt_succ_self _)

end Scan
end Scriptlet
