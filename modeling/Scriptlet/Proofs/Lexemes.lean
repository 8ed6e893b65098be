import Scriptlet.Proofs.Scanning

/-!
# Lexemes

What a token is and where it ends. `Lexes` lists the forms of tokens, `Stuck` what begins with
none of them; scanning finds one or the other.

* `Lexes.scanToken`: scanning finds a token where there is one;
* `lexes_or_stuck`: where there is none, nothing can be completed.

A token ends by itself or at the first character that cannot belong to it. White space is such
a character for every token, so it ends a token as the end of the text does:

* `Lexes.cut`: a token stays the same if the text ends with it;
* `Lexes.append`: a token stays the same if white space and anything else follows the text.
-/

namespace Scriptlet

open Text (byteLength)

/-! ## Prefix trees -/

namespace Text
namespace Trie

variable {α : Type}

/-- The subtree that a word leads to. -/
def descend? : Trie α → List Char → Option (Trie α)
  | trie, [] => some trie
  | trie, char :: rest => (trie.child? char).bind fun subtree => subtree.descend? rest

theorem descend?_insert {word path : List Char} {value : α} {trie subtree : Trie α}
    (found : (trie.insert word value).descend? path = some subtree) :
    path <+: word ∨ (trie.descend? path).isSome := by
  induction path generalizing word trie with
  | nil => exact .inl (List.nil_prefix)
  | cons char path ih =>
    obtain ⟨here, children⟩ := trie
    cases word with
    | nil =>
      rw [insert, descend?] at found
      exact .inr (Option.isSome_of_eq_some found)
    | cons first word =>
      rw [insert, descend?, child?_setChild] at found
      rw [descend?]
      by_cases same : char = first
      · subst same
        rw [if_pos rfl, Option.bind_some] at found
        rcases ih found with below | below
        · exact .inl (List.cons_prefix_cons.mpr ⟨rfl, below⟩)
        · cases isChild : (Trie.node here children).child? char with
          | some old =>
            rw [isChild, Option.getD_some] at below
            exact .inr below
          | none =>
            -- a new subtree has no other words yet
            rw [isChild, Option.getD_none] at below
            cases path with
            | nil => exact .inl (by simp)
            | cons next path => cases below
      · rw [if_neg same] at found
        exact .inr (Option.isSome_of_eq_some found)

/-- Only beginnings of words lead through the tree of a table. -/
theorem descend?_ofTable {table : List (String × α)} {path : List Char} {subtree : Trie α}
    (found : (ofTable table).descend? path = some subtree) :
    path = [] ∨ ∃ entry ∈ table, path <+: entry.1.toList := by
  suffices main : ∀ (table : List (String × α)) (trie : Trie α) (subtree : Trie α),
      (table.foldl (fun trie entry => trie.insert entry.1.toList entry.2) trie).descend? path =
        some subtree →
      (trie.descend? path).isSome ∨ ∃ entry ∈ table, path <+: entry.1.toList by
    rcases main table empty subtree found with none | word
    · cases path with
      | nil => exact .inl rfl
      | cons char path => cases none
    · exact .inr word
  intro table
  induction table with
  | nil => exact fun trie subtree found => .inl (Option.isSome_of_eq_some found)
  | cons entry rest ih =>
    intro trie subtree found
    rcases ih _ _ found with inserted | ⟨later, member, begins⟩
    · obtain ⟨subtree, inserted⟩ := Option.isSome_iff_exists.mp inserted
      rcases descend?_insert inserted with begins | before
      · exact .inr ⟨entry, List.mem_cons_self, begins⟩
      · exact .inl before
    · exact .inr ⟨later, List.mem_cons_of_mem entry member, begins⟩

/-- The longest word of a text is the same if a character follows that leads nowhere. -/
theorem longest?_append {trie : Trie α} {char : Char}
    (nowhere : ∀ path subtree, trie.descend? path = some subtree → subtree.child? char = none)
    (text more : List Char) :
    trie.longest? (text ++ char :: more) =
      (trie.longest? text).map fun found => (found.1, found.2 ++ char :: more) := by
  induction text generalizing trie with
  | nil =>
    have here := nowhere [] trie rfl
    obtain ⟨value, children⟩ := trie
    simp [longest?, here, Function.comp_def]
  | cons first text ih =>
    have below (subtree : Trie α) (isChild : trie.child? first = some subtree) :
        ∀ path lower, subtree.descend? path = some lower → lower.child? char = none := by
      intro path lower found
      refine nowhere (first :: path) lower ?_
      rw [descend?, isChild]
      exact found
    obtain ⟨value, children⟩ := trie
    rw [List.cons_append, longest?, longest?]
    cases isChild : (Trie.node value children).child? first with
    | none => simp [Function.comp_def]
    | some subtree =>
      simp only [ih (below subtree isChild)]
      cases subtree.longest? text <;> simp [Function.comp_def]

end Trie
end Text

namespace Scan

/-! ## White space -/

/-- No range of letters or numbers meets one of white space. -/
theorem spaces_apart : (Text.alphabeticRanges.toList ++ Text.numericRanges.toList).all
    (fun range => Text.whiteSpaceRanges.toList.all fun space =>
      Nat.blt space.2 range.1 || Nat.blt range.2 space.1) = true := by
  decide +kernel

theorem space_outside {char : Char} (isSpace : Text.isWhiteSpace char = true)
    (ranges : Text.Ranges)
    (known : ∀ range ∈ ranges, range ∈ Text.alphabeticRanges.toList ++ Text.numericRanges.toList) :
    ranges.contains char = false := by
  obtain ⟨space, listed, least, most⟩ : ∃ space ∈ Text.whiteSpaceRanges.toList,
      space.1 ≤ char.toNat ∧ char.toNat ≤ space.2 := by
    rw [Text.isWhiteSpace, Text.Ranges.contains, Array.any_eq_true'] at isSpace
    obtain ⟨space, listed, holds⟩ := isSpace
    exact ⟨space, Array.mem_toList_iff.mpr listed, by simpa using holds⟩
  refine Array.any_eq_false'.mpr fun range member => ?_
  have apart := List.all_eq_true.mp (List.all_eq_true.mp spaces_apart range (known range member))
    space listed
  simp only [Bool.or_eq_true, Nat.blt_eq] at apart
  simp only [Bool.and_eq_true, decide_eq_true_eq]
  omega

/-- No token that has no quotes contains white space. -/
theorem space_ends {char : Char} (isSpace : Text.isWhiteSpace char = true) :
    continuesWord char = false ∧ Text.isDigit char = false ∧ char ≠ '.' ∧ char ≠ '/' ∧
      char ≠ '*' ∧ ∀ symbol ∈ Symbol.all, char ∉ symbol.spelling.toList := by
  let codes := [9, 10, 11, 12, 13, 32, 133, 160, 5760, 8192, 8193, 8194, 8195, 8196, 8197, 8198,
    8199, 8200, 8201, 8202, 8232, 8233, 8239, 8287, 12288]
  have code : char.toNat ∈ codes := by
    simp [Text.isWhiteSpace, Text.whiteSpaceRanges, Text.Ranges.contains] at isSpace
    simp only [codes, List.mem_cons, List.not_mem_nil, or_false]
    omega
  have each : ∀ code ∈ codes, (Char.ofNat code).isAlphanum = false ∧ Char.ofNat code ≠ '_' ∧
      Char.ofNat code ≠ '$' ∧ Text.isDigit (Char.ofNat code) = false ∧ Char.ofNat code ≠ '.' ∧
      Char.ofNat code ≠ '/' ∧ Char.ofNat code ≠ '*' ∧
      ∀ symbol ∈ Symbol.all, Char.ofNat code ∉ symbol.spelling.toList := by
    decide +kernel
  have known := each char.toNat code
  rw [Char.ofNat_toNat] at known
  obtain ⟨alphanum, underscore, dollar, others⟩ := known
  have letters := space_outside isSpace Text.alphabeticRanges fun range member => by
    simp [Array.mem_toList_iff.mpr member]
  have numbers := space_outside isSpace Text.numericRanges fun range member => by
    simp [Array.mem_toList_iff.mpr member]
  refine ⟨?_, others⟩
  simp [continuesWord, Text.isAlphanumeric, alphanum, underscore, dollar, letters, numbers]

theorem symbol_mem_all (symbol : Symbol) : symbol ∈ Symbol.all := by
  cases symbol <;> decide

/-- White space leads nowhere in the tree of symbols. -/
theorem space_leads_nowhere {char : Char} (isSpace : Text.isWhiteSpace char = true)
    (path : List Char) (subtree : Text.Trie Symbol)
    (found : Symbol.trie.descend? path = some subtree) : subtree.child? char = none := by
  by_contra isChild
  obtain ⟨below, isChild⟩ := Option.ne_none_iff_exists'.mp isChild
  have further : Symbol.trie.descend? (path ++ [char]) = some below := by
    clear isSpace
    generalize Symbol.trie = trie at found
    induction path generalizing trie with
    | nil =>
      cases found
      simp [Text.Trie.descend?, isChild]
    | cons first path ih =>
      rw [Text.Trie.descend?] at found
      obtain ⟨next, isNext, found⟩ := Option.bind_eq_some_iff.mp found
      rw [List.cons_append, Text.Trie.descend?, isNext]
      exact ih next found
  rcases Text.Trie.descend?_ofTable further with nil | ⟨entry, member, begins⟩
  · simp at nil
  · obtain ⟨symbol, known, rfl⟩ := List.mem_map.mp member
    exact (space_ends isSpace).2.2.2.2.2 symbol known (begins.subset (by simp))

/-! ## The forms of tokens -/

/-- Whether a text ends or goes on with a character of another kind. -/
def Ends (inside : Char → Bool) (rest : List Char) : Prop :=
  ∀ char ∈ rest.head?, inside char = false

/-- Whether a text that begins with `written` and goes on with `rest` begins with a token of
this kind and lexeme, which is written as `written`. -/
inductive Lexes : List Char → List Char → Kind → List Char → Prop where
  | word {char : Char} {tail rest : List Char} (begins : beginsWord char = true)
    (within : ∀ char ∈ tail, continuesWord char = true) (ends : Ends continuesWord rest) :
    Lexes (char :: tail) rest (.ofWord (String.ofList (char :: tail))) (char :: tail)
  | whole {digits rest : List Char} (some : digits ≠ [])
    (within : ∀ digit ∈ digits, Text.isDigit digit = true) (ends : Ends Text.isDigit rest)
    (point : ∀ digit more, rest = '.' :: digit :: more → Text.isDigit digit = false) :
    Lexes digits rest .number digits
  | decimal {digits fraction rest : List Char} (some : digits ≠ [])
    (within : ∀ digit ∈ digits, Text.isDigit digit = true) (places : fraction ≠ [])
    (within' : ∀ digit ∈ fraction, Text.isDigit digit = true) (ends : Ends Text.isDigit rest) :
    Lexes (digits ++ '.' :: fraction) rest .number (digits ++ '.' :: fraction)
  | string {quote : Char} {body rest : List Char} (isQuote : quote = '"' ∨ quote = '\'')
    (within : quote ∉ body ∧ '\n' ∉ body) :
    Lexes (quote :: (body ++ [quote])) rest .string body
  | template {body rest : List Char} (within : '`' ∉ body) :
    Lexes ('`' :: (body ++ ['`'])) rest .template body
  | symbol {symbol : Symbol} {rest : List Char}
    (longest : Symbol.trie.longest? (symbol.spelling.toList ++ rest) = some (symbol, rest)) :
    Lexes symbol.spelling.toList rest (.symbol symbol) symbol.spelling.toList

/-- Whether no token begins with the character, and no white space does. -/
def BeginsNothing (char : Char) : Prop :=
  Text.isWhiteSpace char = false ∧ beginsWord char = false ∧ Text.isDigit char = false ∧
    char ≠ '"' ∧ char ≠ '\'' ∧ char ≠ '`' ∧
    ∀ symbol : Symbol, symbol.spelling.toList.head? ≠ some char

/-- What a text begins with that is no token and no comment: one that is never completed, or
a character that begins nothing. -/
inductive Stuck : LexicalFault → List Char → Prop where
  | string {quote : Char} {body rest : List Char} (isQuote : quote = '"' ∨ quote = '\'')
    (within : quote ∉ body ∧ '\n' ∉ body) (ended : rest = [] ∨ rest.head? = some '\n') :
    Stuck .unterminatedString (quote :: (body ++ rest))
  | template {body : List Char} (within : '`' ∉ body) : Stuck .unterminatedTemplate ('`' :: body)
  | comment {body : List Char} (within : ¬['*', '/'] <:+: body) :
    Stuck .unterminatedComment ('/' :: '*' :: body)
  | character {char : Char} {rest : List Char} (nothing : BeginsNothing char) :
    Stuck (.unrecognizedCharacter char) (char :: rest)

/-! ## What follows a token -/

theorem Ends.append {inside : Char → Bool} {rest : List Char} {space : Char}
    (ends : Ends inside rest) (outside : inside space = false) (more : List Char) :
    Ends inside (rest ++ space :: more) := by
  cases rest with
  | nil =>
    rintro _ ⟨⟩
    exact outside
  | cons char rest => exact ends

/-- A token stays the same if the text ends with it. -/
theorem Lexes.cut {written rest lexeme : List Char} {kind : Kind}
    (lexes : Lexes written rest kind lexeme) : Lexes written [] kind lexeme := by
  cases lexes with
  | word begins within _ => exact .word begins within nofun
  | whole some within _ _ => exact .whole some within nofun nofun
  | decimal some within places within' _ => exact .decimal some within places within' nofun
  | string isQuote within => exact .string isQuote within
  | template within => exact .template within
  | @symbol symbol _ _ =>
    have alone : ∀ symbol ∈ Symbol.all,
        Symbol.trie.longest? (symbol.spelling.toList ++ []) = some (symbol, []) := by
      decide +kernel
    exact .symbol (alone symbol (symbol_mem_all symbol))

/-- A token stays the same if white space and anything else follows the text. -/
theorem Lexes.append {written rest lexeme : List Char} {kind : Kind} {space : Char}
    (lexes : Lexes written rest kind lexeme) (isSpace : Text.isWhiteSpace space = true)
    (more : List Char) : Lexes written (rest ++ space :: more) kind lexeme := by
  obtain ⟨word, digit, point, -⟩ := space_ends isSpace
  cases lexes with
  | word begins within ends => exact .word begins within (ends.append word more)
  | whole some within ends noPoint =>
    refine .whole some within (ends.append digit more) fun next later same => ?_
    -- a point and a digit are not both before the white space, nor is one of them
    match rest, same with
    | [], same => exact absurd (List.cons.inj same).1 point
    | [_], same =>
      obtain ⟨rfl, -⟩ := List.cons.inj (List.cons.inj same).2
      exact digit
    | first :: second :: left, same =>
      simp only [List.cons_append, List.cons.injEq] at same
      obtain ⟨rfl, rfl, -⟩ := same
      exact noPoint second left rfl
  | decimal some within places within' ends =>
    exact .decimal some within places within' (ends.append digit more)
  | string isQuote within => exact .string isQuote within
  | template within => exact .template within
  | symbol longest =>
    refine .symbol ?_
    rw [← List.append_assoc, Text.Trie.longest?_append (space_leads_nowhere isSpace), longest]
    rfl

theorem Lexes.ne_nil {written rest lexeme : List Char} {kind : Kind}
    (lexes : Lexes written rest kind lexeme) : written ≠ [] := by
  cases lexes with
  | whole some _ _ _ => exact some
  | @symbol symbol _ _ => cases symbol <;> simp [Symbol.spelling]
  | _ => simp

theorem ofWord_plain {word : String} :
    Kind.ofWord word ≠ .eof ∧ Kind.ofWord word ≠ .string := by
  unfold Kind.ofWord Kind.reserved?
  split
  · exact ⟨nofun, nofun⟩
  · split
    · exact ⟨nofun, nofun⟩
    · cases Keyword.ofSpelling? word <;> exact ⟨nofun, nofun⟩

theorem Lexes.kind_ne_eof {written rest lexeme : List Char} {kind : Kind}
    (lexes : Lexes written rest kind lexeme) : kind ≠ .eof := by
  cases lexes with
  | word => exact ofWord_plain.1
  | _ => nofun

/-! ## Scanning finds tokens -/

theorem takeWhile_ends {inside : Char → Bool} {tail rest : List Char}
    (within : ∀ char ∈ tail, inside char = true) (ends : Ends inside rest) :
    (tail ++ rest).takeWhile inside = tail ∧ (tail ++ rest).dropWhile inside = rest := by
  rw [List.takeWhile_append_of_pos within, List.dropWhile_append_of_pos within]
  cases rest with
  | nil => simp
  | cons char rest => simp [ends char rfl]

theorem dropWhile_ends (inside : Char → Bool) (text : List Char) :
    Ends inside (text.dropWhile inside) := by
  intro char first
  obtain ⟨rest, dropped⟩ := List.head?_eq_some_iff.mp first
  exact (split_dropWhile dropped).2

/-- The token that is written as `written` and stands at `start`. -/
def Scanned.token (newline : Bool) (start : Nat) (written rest : List Char) (kind : Kind)
    (lexeme : List Char) : Scanned :=
  ⟨.ok ⟨kind, String.ofList lexeme, start, start + byteLength written, newline⟩, rest,
    start + byteLength written⟩

theorem digit_begins_no_word {char : Char} (digit : Text.isDigit char = true) :
    beginsWord char = false := by
  have code : char.toNat ∈ List.range' 48 10 := by
    simp only [Text.isDigit, Char.isDigit, Bool.and_eq_true, decide_eq_true_eq, ge_iff_le,
      UInt32.le_iff_toNat_le] at digit
    simp only [List.mem_range'_1]
    exact ⟨digit.1, Nat.lt_succ_of_le digit.2⟩
  have each : ∀ code ∈ List.range' 48 10, beginsWord (Char.ofNat code) = false := by
    decide +kernel
  have known := each char.toNat code
  rwa [Char.ofNat_toNat] at known

/-- A number without a fraction. -/
theorem splitNumber_whole {digits rest : List Char}
    (within : ∀ digit ∈ digits, Text.isDigit digit = true) (ends : Ends Text.isDigit rest)
    (point : ∀ digit more, rest = '.' :: digit :: more → Text.isDigit digit = false) :
    splitNumber (digits ++ rest) = (digits, rest) := by
  obtain ⟨taken, dropped⟩ := takeWhile_ends within ends
  unfold splitNumber
  rw [taken, dropped]
  split
  · next digit more => rw [if_neg (by simp [point digit more rfl])]
  · rfl

/-- A number with a fraction. -/
theorem splitNumber_decimal {digits fraction rest : List Char}
    (within : ∀ digit ∈ digits, Text.isDigit digit = true) (places : fraction ≠ [])
    (within' : ∀ digit ∈ fraction, Text.isDigit digit = true) (ends : Ends Text.isDigit rest) :
    splitNumber (digits ++ '.' :: (fraction ++ rest)) = (digits ++ '.' :: fraction, rest) := by
  have point : Ends Text.isDigit ('.' :: (fraction ++ rest)) := by
    rintro _ ⟨⟩
    rfl
  obtain ⟨taken, dropped⟩ := takeWhile_ends within point
  obtain ⟨taken', dropped'⟩ := takeWhile_ends within' ends
  obtain ⟨digit, fraction, rfl⟩ := List.exists_cons_of_ne_nil places
  unfold splitNumber
  rw [taken, dropped]
  simp only [List.cons_append] at taken' dropped' ⊢
  rw [if_pos (within' digit List.mem_cons_self), taken', dropped']

/-- Every number is one of the two. -/
theorem splitNumber_cases {char : Char} (digit : Text.isDigit char = true) (text : List Char) :
    ∃ tail rest, text = tail ++ rest ∧ Lexes (char :: tail) rest .number (char :: tail) := by
  have within : ∀ digit ∈ (char :: text).takeWhile Text.isDigit, Text.isDigit digit = true :=
    fun _ => List.mem_takeWhile_imp
  have ends := dropWhile_ends Text.isDigit (char :: text)
  have split := (char :: text).takeWhile_append_dropWhile (p := Text.isDigit)
  rw [List.takeWhile_cons_of_pos digit] at within split
  generalize (char :: text).dropWhile Text.isDigit = rest at ends split
  generalize text.takeWhile Text.isDigit = tail at within split
  obtain rfl : tail ++ rest = text := (List.cons.inj split).2
  by_cases point : ∃ digit more, rest = '.' :: digit :: more ∧ Text.isDigit digit = true
  · obtain ⟨first, more, rfl, isDigit⟩ := point
    have places : (first :: more).takeWhile Text.isDigit ≠ [] := by
      simp [List.takeWhile_cons_of_pos isDigit]
    have lexes := Lexes.decimal (List.cons_ne_nil char tail) within places
      (fun _ => List.mem_takeWhile_imp) (dropWhile_ends Text.isDigit (first :: more))
    refine ⟨tail ++ '.' :: (first :: more).takeWhile Text.isDigit, _, ?_, lexes⟩
    simp
  · refine ⟨tail, rest, rfl, .whole (List.cons_ne_nil char tail) within ends ?_⟩
    intro digit more same
    by_contra isDigit
    exact point ⟨digit, more, same, by simpa using isDigit⟩

/-- No symbol begins like a word, a number, a string or a template. -/
theorem symbol_begins {symbol : Symbol} {char : Char}
    (begins : symbol.spelling.toList.head? = some char) :
    beginsWord char = false ∧ Text.isDigit char = false ∧ char ≠ '"' ∧ char ≠ '\'' ∧
      char ≠ '`' := by
  have each : Symbol.all.all (fun symbol => symbol.spelling.toList.head?.all fun char =>
      !beginsWord char && !Text.isDigit char && char != '"' && char != '\'' && char != '`') =
      true := by decide +kernel
  have known := List.all_eq_true.mp each symbol (symbol_mem_all symbol)
  rw [begins] at known
  simpa [and_assoc] using known

theorem scanToken_number {char : Char} {text written rest : List Char}
    (digit : Text.isDigit char = true) (split : splitNumber (char :: text) = (written, rest))
    (newline : Bool) (start : Nat) :
    scanToken newline start char text = .token newline start written rest .number written := by
  rw [scanToken, if_neg (by simp [digit_begins_no_word digit]), if_pos digit, split]
  rfl

theorem scanToken_string {quote : Char} {body : List Char} (isQuote : quote = '"' ∨ quote = '\'')
    (within : quote ∉ body ∧ '\n' ∉ body) (newline : Bool) (start : Nat) (rest : List Char) :
    scanToken newline start quote (body ++ quote :: rest) =
      .token newline start (quote :: (body ++ [quote])) rest .string body := by
  have plain : beginsWord quote = false ∧ Text.isDigit quote = false ∧ quote.utf8Size = 1 := by
    rcases isQuote with rfl | rfl <;> decide +kernel
  have inside : ∀ char ∈ body, (char != quote && char != '\n') = true := by
    intro char member
    have first : char ≠ quote := fun same => within.1 (same ▸ member)
    have second : char ≠ '\n' := fun same => within.2 (same ▸ member)
    simp [first, second]
  have ends : Ends (fun char => char != quote && char != '\n') (quote :: rest) := by
    rintro _ ⟨⟩
    simp
  have stop : start + byteLength body + 2 = start + byteLength (quote :: (body ++ [quote])) := by
    simp only [Text.byteLength_cons, Text.byteLength_append, Text.byteLength_nil, plain.2.2]
    omega
  obtain ⟨taken, dropped⟩ := takeWhile_ends inside ends
  rw [scanToken, if_neg (by simp [plain.1]), if_neg (by simp [plain.2.1]),
    if_pos (by simpa using isQuote), scanString]
  simp only [taken, dropped, beq_self_eq_true, if_true, accept, Scanned.token, stop]

theorem scanToken_template {body : List Char} (within : '`' ∉ body) (newline : Bool) (start : Nat)
    (rest : List Char) :
    scanToken newline start '`' (body ++ '`' :: rest) =
      .token newline start ('`' :: (body ++ ['`'])) rest .template body := by
  have plain : beginsWord '`' = false ∧ Text.isDigit '`' = false ∧ '`'.utf8Size = 1 := by
    decide +kernel
  have inside : ∀ char ∈ body, (char != '`') = true := by
    intro char member
    simpa using fun same : char = '`' => within (same ▸ member)
  have ends : Ends (· != '`') ('`' :: rest) := by
    rintro _ ⟨⟩
    rfl
  have stop : start + byteLength body + 2 = start + byteLength ('`' :: (body ++ ['`'])) := by
    simp only [Text.byteLength_cons, Text.byteLength_append, Text.byteLength_nil, plain.2.2]
    omega
  obtain ⟨taken, dropped⟩ := takeWhile_ends inside ends
  rw [scanToken, if_neg (by simp [plain.1]), if_neg (by simp [plain.2.1]), if_neg (by decide),
    if_pos (beq_self_eq_true _), scanTemplate]
  simp only [taken, dropped, accept, Scanned.token, stop]

theorem scanToken_symbol {char : Char} {text rest : List Char} {symbol : Symbol}
    (begins : symbol.spelling.toList.head? = some char)
    (longest : Symbol.trie.longest? (char :: text) = some (symbol, rest)) (newline : Bool)
    (start : Nat) :
    scanToken newline start char text =
      .token newline start symbol.spelling.toList rest (.symbol symbol)
        symbol.spelling.toList := by
  obtain ⟨word, digit, double, single, tick⟩ := symbol_begins begins
  rw [scanToken, if_neg (by simp [word]), if_neg (by simp [digit]),
    if_neg (by simp [double, single]), if_neg (by simp [tick]), scanSymbol,
    scanOperator, longest]
  rfl

/-- Scanning finds a token where there is one. -/
theorem Lexes.scanToken {char : Char} {text written rest lexeme : List Char} {kind : Kind}
    (lexes : Lexes written rest kind lexeme) (begins : char :: text = written ++ rest)
    (newline : Bool) (start : Nat) :
    Scan.scanToken newline start char text = .token newline start written rest kind lexeme := by
  cases lexes with
  | word isWord within ends =>
    simp only [List.cons_append, List.cons.injEq] at begins
    obtain ⟨rfl, rfl⟩ := begins
    obtain ⟨taken, dropped⟩ := takeWhile_ends within ends
    rw [Scan.scanToken, if_pos isWord, taken, dropped]
    rfl
  | whole some within ends point =>
    obtain ⟨first, digits, rfl⟩ := List.exists_cons_of_ne_nil some
    simp only [List.cons_append, List.cons.injEq] at begins
    obtain ⟨rfl, rfl⟩ := begins
    exact scanToken_number (within char List.mem_cons_self) (splitNumber_whole within ends point)
      newline start
  | @decimal digits fraction _ some within places within' ends =>
    obtain ⟨first, digits, rfl⟩ := List.exists_cons_of_ne_nil some
    simp only [List.cons_append, List.cons.injEq] at begins
    obtain ⟨rfl, rfl⟩ := begins
    have split := splitNumber_decimal within places within' ends
    refine scanToken_number (within char List.mem_cons_self) ?_ newline start
    simpa using split
  | @string quote body _ isQuote within =>
    simp only [List.cons_append, List.cons.injEq] at begins
    obtain ⟨rfl, rfl⟩ := begins
    simpa using scanToken_string isQuote within newline start rest
  | @template body _ within =>
    simp only [List.cons_append, List.cons.injEq] at begins
    obtain ⟨rfl, rfl⟩ := begins
    simpa using scanToken_template within newline start rest
  | @symbol symbol _ longest =>
    obtain ⟨first, spelling, same⟩ := List.exists_cons_of_ne_nil (Lexes.symbol longest).ne_nil
    rw [← begins] at longest
    refine scanToken_symbol ?_ longest newline start
    rw [same] at begins ⊢
    exact congrArg some (List.cons.inj begins).1.symm

/-! ## Where there is no token -/

/-- The first character of every symbol leads on in the tree of symbols. -/
theorem child?_symbol (symbol : Symbol) {char : Char}
    (begins : symbol.spelling.toList.head? = some char) :
    (Symbol.trie.child? char).isSome := by
  have member : (symbol.spelling, symbol) ∈ Symbol.table :=
    List.mem_map.mpr ⟨symbol, symbol_mem_all symbol, rfl⟩
  have found := Text.Trie.find?_ofTable_isSome member
  obtain ⟨rest, same⟩ := List.head?_eq_some_iff.mp begins
  rw [same, Text.Trie.find?] at found
  exact Option.isSome_of_isSome_bind found

/-- A string is closed on its line, or stuck. -/
theorem string_or_stuck {quote : Char} (text : List Char) (isQuote : quote = '"' ∨ quote = '\'') :
    (∃ tail rest kind lexeme, text = tail ++ rest ∧ Lexes (quote :: tail) rest kind lexeme) ∨
      ∃ consumed rest, Stuck .unterminatedString (quote :: text) ∧ ∀ newline start,
        scanString newline start quote text = refuse start .unterminatedString consumed rest := by
  have within : quote ∉ text.takeWhile (fun char => char != quote && char != '\n') ∧
      '\n' ∉ text.takeWhile (fun char => char != quote && char != '\n') :=
    ⟨fun member => by simpa using List.mem_takeWhile_imp member,
      fun member => by simpa using List.mem_takeWhile_imp member⟩
  unfold scanString
  dsimp only
  cases dropped : text.dropWhile (fun char => char != quote && char != '\n') with
  | nil =>
    have stuck := Stuck.string isQuote within (.inl rfl)
    rw [← dropped, List.takeWhile_append_dropWhile] at stuck
    exact .inr ⟨_, _, stuck, fun _ _ => rfl⟩
  | cons char rest =>
    obtain ⟨same, ended⟩ := split_dropWhile dropped
    generalize text.takeWhile _ = body at same within ⊢
    subst same
    by_cases isEnd : char = quote
    · subst isEnd
      exact .inl ⟨body ++ [char], rest, _, _, by simp, .string isQuote within⟩
    · have isBreak : char = '\n' := by
        by_contra other
        simp [isEnd, other] at ended
      refine .inr ⟨quote :: body ++ [char], rest, ?_, fun _ _ => if_neg (by simpa using isEnd)⟩
      exact .string isQuote within (.inr (by rw [isBreak]; rfl))

/-- A template is closed, or stuck. -/
theorem template_or_stuck (text : List Char) :
    (∃ tail rest kind lexeme, text = tail ++ rest ∧ Lexes ('`' :: tail) rest kind lexeme) ∨
      ∃ consumed rest, Stuck .unterminatedTemplate ('`' :: text) ∧ ∀ newline start,
        scanTemplate newline start text = refuse start .unterminatedTemplate consumed rest := by
  unfold scanTemplate
  cases dropped : text.dropWhile (· != '`') with
  | nil =>
    refine .inr ⟨_, _, .template fun member => ?_, fun _ _ => rfl⟩
    simpa using List.dropWhile_eq_nil_iff.mp dropped _ member
  | cons char rest =>
    have within : '`' ∉ text.takeWhile (· != '`') := fun member => by
      simpa using List.mem_takeWhile_imp member
    obtain ⟨same, ended⟩ := split_dropWhile dropped
    obtain rfl : char = '`' := by simpa using ended
    generalize text.takeWhile _ = body at same within
    subst same
    exact .inl ⟨body ++ ['`'], rest, _, _, by simp, .template within⟩

/-- Symbols are found by their first characters: there is no symbol only where none begins. -/
theorem symbol_or_stuck {char : Char} (text : List Char)
    (word : beginsWord char = false) (digit : Text.isDigit char = false)
    (quote : char ≠ '"' ∧ char ≠ '\'') (tick : char ≠ '`') :
    (∃ tail rest kind lexeme, text = tail ++ rest ∧ Lexes (char :: tail) rest kind lexeme) ∨
      ∃ fault consumed rest, (Text.isWhiteSpace char = false → Stuck fault (char :: text)) ∧
        ∀ newline start, scanSymbol newline start char text = refuse start fault consumed rest := by
  unfold scanSymbol scanOperator
  cases found : Symbol.trie.longest? (char :: text) with
  | some result =>
    obtain ⟨symbol, rest⟩ := result
    obtain ⟨entry, member, same, rfl⟩ := Text.Trie.longest?_ofTable found
    obtain ⟨symbol, _, rfl⟩ := List.mem_map.mp member
    have lexes : Lexes symbol.spelling.toList rest (.symbol symbol) symbol.spelling.toList :=
      .symbol (same ▸ found)
    obtain ⟨first, tail, spelled⟩ := List.exists_cons_of_ne_nil lexes.ne_nil
    rw [spelled] at same lexes
    obtain ⟨rfl, rfl⟩ := List.cons.inj same
    exact .inl ⟨tail, rest, _, _, rfl, lexes⟩
  | none =>
    have nowhere := Text.Trie.walk_eq_nil symbol_children_value found
    have refused : ∃ rest, Symbol.trie.walk (char :: text) = ([], rest) := ⟨_, Prod.ext nowhere rfl⟩
    obtain ⟨rest, walked⟩ := refused
    refine .inr ⟨.unrecognizedCharacter char, [char], text, fun isSpace => ?_, fun _ _ => ?_⟩
    · refine .character ⟨isSpace, word, digit, quote.1, quote.2, tick, fun symbol begins => ?_⟩
      obtain ⟨subtree, isChild⟩ := Option.isSome_iff_exists.mp (child?_symbol symbol begins)
      simp [Text.Trie.walk, isChild] at nowhere
    · rw [walked]

/-- Where a text begins with no token, it is stuck, and scanning says so. -/
theorem lexes_or_stuck (char : Char) (text : List Char) :
    (∃ tail rest kind lexeme, text = tail ++ rest ∧ Lexes (char :: tail) rest kind lexeme) ∨
      ∃ fault consumed rest, (Text.isWhiteSpace char = false → Stuck fault (char :: text)) ∧
        ∀ newline start, scanToken newline start char text = refuse start fault consumed rest := by
  unfold scanToken
  by_cases word : beginsWord char = true
  · have lexes : Lexes (char :: text.takeWhile continuesWord) (text.dropWhile continuesWord) _ _ :=
      .word word (fun _ => List.mem_takeWhile_imp) (dropWhile_ends continuesWord text)
    exact .inl ⟨_, _, _, _, by simp, lexes⟩
  by_cases digit : Text.isDigit char = true
  · obtain ⟨tail, rest, split, lexes⟩ := splitNumber_cases digit text
    exact .inl ⟨tail, rest, _, _, split, lexes⟩
  simp only [word, digit, Bool.false_eq_true, if_false]
  by_cases isQuote : char = '"' ∨ char = '\''
  · simp only [if_pos (show (char == '"' || char == '\'') = true by simpa using isQuote)]
    refine (string_or_stuck text isQuote).imp_right ?_
    rintro ⟨consumed, rest, stuck, refused⟩
    exact ⟨_, consumed, rest, fun _ => stuck, refused⟩
  simp only [if_neg (show ¬(char == '"' || char == '\'') = true by simpa using isQuote)]
  by_cases tick : char = '`'
  · subst tick
    refine (template_or_stuck text).imp_right ?_
    rintro ⟨consumed, rest, stuck, refused⟩
    exact ⟨_, consumed, rest, fun _ => stuck, refused⟩
  · simp only [if_neg (show ¬(char == '`') = true by simpa using tick)]
    exact symbol_or_stuck text (by simpa using word) (by simpa using digit)
      (not_or.mp isQuote) tick

end Scan
end Scriptlet
