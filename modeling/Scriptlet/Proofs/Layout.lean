import Scriptlet.Proofs.Lexemes
import Scriptlet.Proofs.Offsets
import Scriptlet.Proofs.Spacing

/-!
# Layout

How a script is laid out does not matter. White space and comments between tokens may be
replaced by others, as long as line breaks stay where they were: the tokens are the same then,
and so are the trees or the errors that come of them. Only offsets differ.

* `scans_iff`: the tokens of a text, found by a rule for each of them;
* `Scans.relaid`: the tokens of a text that is laid out in another way;
* `layout_is_free`: what a reader makes of such a text.
-/

namespace Scriptlet

open Text (byteLength)

namespace Scan

/-! ## Scanning by rules -/

/-- Whether a text begins with the beginning of a comment. -/
def OpensComment (text : List Char) : Prop :=
  text.head? = some '/' ∧ (text.tail.head? = some '/' ∨ text.tail.head? = some '*')

/-- Whether a text that begins at byte offset `position` is scanned without error, into these
tokens. -/
inductive Scans : Nat → List Char → List Token → Prop where
  | stop {position : Nat} {text : List Char} (trails : Trailing text) :
    Scans position text [.endAt (position + byteLength text) (decide ('\n' ∈ text))]
  | token {position : Nat} {gap written rest lexeme : List Char} {kind : Kind}
    {tokens : List Token} (spacing : Spacing gap) (lexes : Lexes written rest kind lexeme)
    (opens : ¬OpensComment (written ++ rest))
    (more : Scans (position + byteLength gap + byteLength written) rest tokens) :
    Scans position (gap ++ (written ++ rest))
      (⟨kind, String.ofList lexeme, position + byteLength gap,
        position + byteLength gap + byteLength written, decide ('\n' ∈ gap)⟩ :: tokens)

theorem continuesWord_of_begins {char : Char} (begins : beginsWord char = true) :
    continuesWord char = true := by
  unfold beginsWord at begins
  unfold continuesWord
  rw [Bool.or_assoc, Bool.or_eq_true] at begins ⊢
  refine begins.imp_left fun letter => ?_
  unfold Text.isAlphabetic at letter
  unfold Text.isAlphanumeric
  split at letter
  · next ascii => rw [if_pos ascii, Char.isAlphanum, letter, Bool.true_or]
  · next ascii => rw [if_neg ascii, letter, Bool.true_or]

/-- No token begins with white space. -/
theorem Lexes.not_space {char : Char} {tail rest lexeme : List Char} {kind : Kind}
    (lexes : Lexes (char :: tail) rest kind lexeme) : Text.isWhiteSpace char = false := by
  by_contra isSpace
  rw [Bool.not_eq_false] at isSpace
  obtain ⟨noWord, noDigit, -, -, -, noSymbol⟩ := space_ends isSpace
  have notFirst {digits : List Char} (within : ∀ digit ∈ digits, Text.isDigit digit = true) :
      digits.head? ≠ some char := by
    intro first
    have digit := within char (List.mem_of_head? first)
    rw [noDigit] at digit
    cases digit
  generalize same : char :: tail = written at lexes
  have first : written.head? = some char := by rw [← same]; rfl
  cases lexes with
  | word begins _ _ =>
    obtain rfl := Option.some.inj first
    rw [continuesWord_of_begins begins] at noWord
    cases noWord
  | whole some within _ _ => exact notFirst within first
  | @decimal digits fraction _ some within _ _ _ =>
    obtain ⟨digit, digits, rfl⟩ := List.exists_cons_of_ne_nil some
    exact notFirst within first
  | string isQuote _ =>
    obtain rfl := Option.some.inj first
    have quotes : Text.isWhiteSpace '"' = false ∧ Text.isWhiteSpace '\'' = false := by
      decide +kernel
    rcases isQuote with rfl | rfl <;> simp [quotes] at isSpace
  | template _ =>
    obtain rfl := Option.some.inj first
    have tick : Text.isWhiteSpace '`' = false := by decide +kernel
    simp [tick] at isSpace
  | @symbol symbol _ _ =>
    exact noSymbol symbol (symbol_mem_all symbol) (List.mem_of_head? first)

/-- Scanning finds the token after white space and comments. -/
theorem scanNext_token {gap written rest lexeme : List Char} {kind : Kind} (spacing : Spacing gap)
    (lexes : Lexes written rest kind lexeme) (opens : ¬OpensComment (written ++ rest))
    (position : Nat) :
    scanNext position (gap ++ (written ++ rest)) =
      .token (decide ('\n' ∈ gap)) (position + byteLength gap) written rest kind lexeme := by
  obtain ⟨char, tail, rfl⟩ := List.exists_cons_of_ne_nil lexes.ne_nil
  rw [List.cons_append] at opens ⊢
  have plain (isSlash : char = '/') :
      (tail ++ rest).head? ≠ some '/' ∧ (tail ++ rest).head? ≠ some '*' := by
    constructor
    · exact fun next => opens ⟨congrArg some isSlash, .inl next⟩
    · exact fun next => opens ⟨congrArg some isSlash, .inr next⟩
  rw [scanNext, skipGap_spacing spacing, skipGap_halt_token lexes.not_space plain]
  exact lexes.scanToken rfl _ _

/-- Scanning finds the end of the text after white space and comments. -/
theorem scanNext_trailing {text : List Char} (trails : Trailing text) (position : Nat) :
    scanNext position text =
      ⟨.ok (.endAt (position + byteLength text) (decide ('\n' ∈ text))), [],
        position + byteLength text⟩ := by
  obtain ⟨gap, rest, rfl, spacing, rfl | ⟨body, rfl, within⟩⟩ := trails
  · rw [scanNext, skipGap_spacing spacing]
    simp [skipGap]
  · rw [scanNext, skipGap_spacing spacing, skipGap_halt_line within]
    simp [within, Text.byteLength_append, Nat.add_assoc]

theorem scanUpTo_of_scans {position : Nat} {text : List Char} {tokens : List Token}
    (scans : Scans position text tokens) {count : Nat} (enough : text.length < count) :
    scanUpTo count position text = tokens.map .ok := by
  induction scans generalizing count with
  | stop trails =>
    obtain ⟨count, rfl⟩ := Nat.exists_eq_succ_of_ne_zero (Nat.ne_zero_of_lt enough)
    rw [scanUpTo, scanNext_trailing trails]
    rfl
  | @token position gap written rest lexeme kind tokens spacing lexes opens _ ih =>
    obtain ⟨count, rfl⟩ := Nat.exists_eq_succ_of_ne_zero (Nat.ne_zero_of_lt enough)
    have some := List.length_pos_iff.mpr lexes.ne_nil
    have shorter : rest.length < count := by
      simp only [List.length_append] at enough
      omega
    have isToken : (kind == .eof) = false := beq_eq_false_iff_ne.mpr lexes.kind_ne_eof
    rw [scanUpTo, scanNext_token spacing lexes opens]
    simp only [Scanned.token, isEnd, isToken, Bool.false_eq_true, if_false, List.map_cons,
      ih shorter]

theorem scans_of_scanUpTo {count position : Nat} {text : List Char} {tokens : List Token}
    (scanned : scanUpTo count position text = tokens.map .ok) (enough : text.length < count) :
    Scans position text tokens := by
  induction count generalizing position text tokens with
  | zero => omega
  | succ count ih =>
    obtain ⟨gap, rest, rfl, spacing, halt⟩ := exists_spacing text
    have ended (trails : Trailing (gap ++ rest)) : Scans position (gap ++ rest) tokens := by
      rw [scanUpTo, scanNext_trailing trails] at scanned
      obtain ⟨token, tokens, rfl, same, none⟩ := List.map_eq_cons_iff.mp scanned.symm
      obtain rfl := List.map_eq_nil_iff.mp none
      cases same
      exact .stop trails
    cases halt with
    | stop => exact ended ⟨gap, [], rfl, spacing, .inl rfl⟩
    | @line body within => exact ended ⟨gap, _, rfl, spacing, .inr ⟨body, rfl, within⟩⟩
    | @block body within =>
      rw [scanUpTo, scanNext, skipGap_spacing spacing, skipGap_halt_block within] at scanned
      obtain ⟨token, tokens, rfl, same, -⟩ := List.map_eq_cons_iff.mp scanned.symm
      cases same
    | @token char rest isSpace opens =>
      rcases lexes_or_stuck char rest with ⟨tail, left, kind, lexeme, rfl, lexes⟩ | stuck
      · have noComment : ¬OpensComment (char :: tail ++ left) := by
          rintro ⟨isSlash, next⟩
          obtain ⟨line, block⟩ := opens (Option.some.inj isSlash)
          exact next.elim line block
        have isToken : (kind == .eof) = false := beq_eq_false_iff_ne.mpr lexes.kind_ne_eof
        rw [← List.cons_append] at scanned enough ⊢
        rw [scanUpTo, scanNext_token spacing lexes noComment] at scanned
        simp only [Scanned.token, isEnd, isToken, Bool.false_eq_true, if_false] at scanned
        obtain ⟨token, tokens, rfl, same, more⟩ := List.map_eq_cons_iff.mp scanned.symm
        cases same
        have shorter : left.length < count := by
          simp only [List.length_append, List.length_cons] at enough
          omega
        exact .token spacing lexes noComment (ih more.symm shorter)
      · obtain ⟨fault, consumed, left, -, refused⟩ := stuck
        rw [scanUpTo, scanNext, skipGap_spacing spacing, skipGap_halt_token isSpace opens]
          at scanned
        simp only [refused, refuse, isEnd, Bool.false_eq_true, if_false] at scanned
        obtain ⟨token, tokens, rfl, same, -⟩ := List.map_eq_cons_iff.mp scanned.symm
        cases same

/-- The rules find the tokens of every text that is scanned without error. -/
theorem scans_iff {base : Nat} {text : List Char} {tokens : List Token} :
    Scans base text tokens ↔ scanAll base text = tokens.map .ok :=
  ⟨fun scans => scanUpTo_of_scans scans (Nat.lt_succ_self _),
    fun scanned => scans_of_scanUpTo scanned (Nat.lt_succ_self _)⟩

/-! ## Other layouts -/

/-- A stretch between tokens and one that may stand in its place: it begins with white space
and breaks the line if the other does. -/
structure Respaced (stretch : List Char → Prop) (gap gap' : List Char) : Prop where
  allowed : stretch gap'
  space : ∃ space more, gap' = space :: more ∧ Text.isWhiteSpace space = true
  breaks : '\n' ∈ gap' ↔ '\n' ∈ gap

/-- Whether the second text has the tokens of the first, at byte offset `position`, as they are
written there, with other stretches of white space and comments before each of them. -/
inductive Relaid : Nat → List Token → List Char → List Char → Prop where
  | stop {position : Nat} {token : Token} {gap gap' : List Char}
    (respaced : Respaced Trailing gap gap') : Relaid position [token] gap gap'
  | token {position : Nat} {token : Token} {tokens : List Token}
    {gap gap' written rest rest' : List Char} (start : token.start = position + byteLength gap)
    (stop : token.stop = token.start + byteLength written) (respaced : Respaced Spacing gap gap')
    (more : Relaid token.stop tokens rest rest') :
    Relaid position (token :: tokens) (gap ++ (written ++ rest)) (gap' ++ (written ++ rest'))

theorem Relaid.begins {position : Nat} {tokens : List Token} {text text' : List Char}
    (relaid : Relaid position tokens text text') :
    ∃ space more, text' = space :: more ∧ Text.isWhiteSpace space = true := by
  cases relaid with
  | stop respaced => exact respaced.space
  | token _ _ respaced _ =>
    obtain ⟨space, more, rfl, isSpace⟩ := respaced.space
    exact ⟨space, _, rfl, isSpace⟩

end Scan

/-- Tokens of different texts that a reader cannot tell apart. -/
structure Token.Alike (first second : Token) : Prop where
  kind : first.kind = second.kind
  lexeme : first.lexeme = second.lexeme
  newlineBefore : first.newlineBefore = second.newlineBefore

/-- Errors that are the same apart from their positions. -/
inductive Error.Alike : Error → Error → Prop where
  | lexical {fault : LexicalFault} {first second : Nat} :
    Error.Alike (.lexical fault first) (.lexical fault second)
  | unexpected {expected : Expected} {found : String} {first second : Nat} :
    Error.Alike (.unexpected expected found first) (.unexpected expected found second)
  | same {error : Error} : Error.Alike error error

namespace Scan

/-- A text has one beginning of each size. -/
theorem split_unique {first second first' second' : List Char}
    (same : first ++ second = first' ++ second') (size : byteLength first = byteLength first') :
    first = first' ∧ second = second' := by
  induction first generalizing first' with
  | nil =>
    cases first' with
    | nil => exact ⟨rfl, same⟩
    | cons char first' =>
      have := char.utf8Size_pos
      simp only [Text.byteLength_nil, Text.byteLength_cons] at size
      omega
  | cons char first ih =>
    cases first' with
    | nil =>
      have := char.utf8Size_pos
      simp only [Text.byteLength_nil, Text.byteLength_cons] at size
      omega
    | cons char' first' =>
      obtain ⟨rfl, later⟩ := List.cons.inj same
      simp only [Text.byteLength_cons, Nat.add_left_cancel_iff] at size
      obtain ⟨rfl, rfl⟩ := ih later size
      exact ⟨rfl, rfl⟩

/-- White space does not complete the beginning of a comment. -/
theorem OpensComment.of_space {text more : List Char} {space : Char}
    (opens : OpensComment (text ++ space :: more)) (isSpace : Text.isWhiteSpace space = true) :
    OpensComment text := by
  obtain ⟨-, -, -, slash, star, -⟩ := space_ends isSpace
  match text, opens with
  | [], ⟨first, _⟩ => exact absurd (Option.some.inj first) slash
  | [_], ⟨_, second⟩ =>
    rcases second with second | second
    · exact absurd (Option.some.inj second) slash
    · exact absurd (Option.some.inj second) star
  | _ :: _ :: _, opens => exact opens

theorem OpensComment.append {text : List Char} (opens : OpensComment text) (more : List Char) :
    OpensComment (text ++ more) := by
  match text, opens with
  | [_], ⟨_, second⟩ => simp at second
  | _ :: _ :: _, opens => exact opens

/-- A text that is laid out in another way has the same tokens. -/
theorem Scans.relaid {position : Nat} {text text' : List Char} {tokens : List Token}
    (scans : Scans position text tokens) (relaid : Relaid position tokens text text')
    (position' : Nat) :
    ∃ tokens', Scans position' text' tokens' ∧ List.Forall₂ Token.Alike tokens tokens' := by
  induction relaid generalizing position' with
  | @stop position token gap gap' respaced =>
    have newline : decide ('\n' ∈ gap) = decide ('\n' ∈ gap') := by
      simp only [respaced.breaks]
    cases scans with
    | stop trails => exact ⟨_, .stop respaced.allowed, .cons ⟨rfl, rfl, newline⟩ .nil⟩
    | token _ _ _ more => cases more
  | @token position token tokens gap gap' written rest rest' start stop respaced more ih =>
    have newline : decide ('\n' ∈ gap) = decide ('\n' ∈ gap') := by
      simp only [respaced.breaks]
    generalize same : gap ++ (written ++ rest) = text at scans
    cases scans with
    | stop _ => cases more
    | @token _ gap₀ written₀ rest₀ lexeme kind _ spacing lexes opens scans =>
      -- the spans of the token say where it was found
      obtain ⟨rfl, later⟩ := split_unique same (Nat.add_left_cancel start).symm
      obtain ⟨rfl, rfl⟩ := split_unique later (Nat.add_left_cancel stop).symm
      obtain ⟨tokens', scans', alike⟩ := ih scans _
      obtain ⟨space, later, rfl, isSpace⟩ := more.begins
      have noComment : ¬OpensComment (written ++ space :: later) :=
        fun comment => opens ((comment.of_space isSpace).append rest)
      refine ⟨_, .token respaced.allowed (lexes.cut.append isSpace later) noComment scans', ?_⟩
      exact .cons ⟨rfl, rfl, newline⟩ alike

end Scan

/-! ## Reading other layouts -/

namespace Grammar

/-- The relation between the parses of texts that differ in their layout. -/
def Simulation.alike : Simulation where
  token a b := a.Alike b ∧ (a.kind = .number → (Number.Decimal.read? a.lexeme.toList).isSome)
  error := Error.Alike
  kind same := same.1.kind
  lexeme same := same.1.lexeme
  newlineBefore same := same.1.newlineBefore
  number same := same.2
  endAt _ := ⟨⟨rfl, rfl, rfl⟩, nofun⟩
  unexpected := by
    rintro a b expected ⟨same, _⟩ _
    have found : a.description = b.description := by
      rw [Token.description, Token.description, same.kind, same.lexeme]
    rw [found]
    exact .unexpected
  unimplemented _ := .same

/-- The relation between the errors of a text at any two offsets. -/
def Placing.alike : Placing where
  offsets _ _ := True
  error _ _ _ := Error.Alike
  later _ _ := trivial
  within related _ := related
  unexpected _ _ _ _ _ := .unexpected

namespace Simulation

/-- A text is read in the same way at any two offsets. -/
theorem alike_starts (p q : Nat) (text : List Char) :
    Sides alike.States alike.error (State.ofText p text) (State.ofText q text) := by
  have shifted (amount : Nat) := Scan.scanAll_shift amount 0 text
  simp only [Nat.zero_add] at shifted
  refine sides_ofText ?_ ⟨⟨rfl, rfl, rfl⟩, nofun⟩
  rw [shifted p, shifted q, List.forall₂_map_left_iff, List.forall₂_map_right_iff]
  refine List.forall₂_same.mpr fun item member => ?_
  have known := Scan.scanUpTo_from member
  cases item with
  | ok token =>
    have number := Token.From.number known
    exact .ok ⟨⟨rfl, rfl, rfl⟩, number⟩
  | error error =>
    refine .error ?_
    cases error with
    | lexical fault position => exact .lexical
    | unexpected expected found position => exact .unexpected
    | _ => exact .same

theorem alike_template (limit : Nat) {a b : Token} (lexeme : a.lexeme = b.lexeme) :
    Sides (Agreed Expr.WellFormed) alike.error (template (spanExpr limit) a)
      (template (spanExpr limit) b) := by
  refine Placing.alike.sides_template ?_ lexeme trivial
  intro p q _ source
  exact sides_spanExpr Error.Alike.same (alike_starts p q source)

/-- The tokens of two texts that differ in their layout. -/
theorem alike_items {base : Nat} {text : List Char} {tokens tokens' : List Token}
    (scanned : Scan.scanAll base text = tokens.map .ok)
    (alikes : List.Forall₂ Token.Alike tokens tokens') :
    List.Forall₂ (Sides alike.token alike.error) (tokens.map .ok) (tokens'.map .ok) := by
  have known : ∀ token ∈ tokens, token.kind = .number →
      (Number.Decimal.read? token.lexeme.toList).isSome := by
    intro token member
    have listed : .ok token ∈ Scan.scanAll base text := by
      rw [scanned]
      exact List.mem_map_of_mem member
    exact Token.From.number (Scan.scanUpTo_from listed)
  clear scanned
  induction alikes with
  | nil => exact .nil
  | @cons token token' tokens tokens' related _ ih =>
    refine .cons (.ok ⟨related, known token List.mem_cons_self⟩) (ih fun other later => ?_)
    exact known other (List.mem_cons_of_mem token later)

end Simulation
end Grammar

open Grammar in
/-- A text that is laid out in another way is scanned into the same tokens, and read as the
same script or with the same error, apart from positions. -/
theorem layout_is_free {code code' : String} {tokens : List Token}
    (scanned : Scan.scanAll 0 code.toList = tokens.map .ok)
    (relaid : Scan.Relaid 0 tokens code.toList code'.toList) (limit : Nat) :
    (∃ tokens', Scan.scanAll 0 code'.toList = tokens'.map .ok ∧
      List.Forall₂ Token.Alike tokens tokens') ∧
    Sides Eq Error.Alike (Program.parse code limit) (Program.parse code' limit) := by
  obtain ⟨tokens', scans', alikes⟩ := (Scan.scans_iff.mpr scanned).relaid relaid 0
  have scanned' := Scan.scans_iff.mp scans'
  refine ⟨⟨tokens', scanned', alikes⟩, ?_⟩
  have items := Simulation.alike_items scanned alikes
  rw [← scanned, ← scanned'] at items
  have starts := Simulation.sides_ofText items ⟨⟨rfl, rfl, rfl⟩, nofun⟩
  unfold Program.parse
  generalize State.ofText 0 code.toList = left, State.ofText 0 code'.toList = right at starts
  cases starts with
  | error related => exact .error related
  | ok states =>
    have runs : Simulation.alike.Runs (Agreed fun script => everyStmt Node.WellFormed script.body)
        (parseProgram limit) (parseProgram limit) :=
      Simulation.runs_entering Error.Alike.same
        (fun token _ => Simulation.alike_template limit token.1.lexeme) Simulation.runs_program
    exact ((runs _ _ states trivial).weaken fun _ _ agreed => agreed.1).outcome

/-- A comment that ends a line, and the line break alone. -/
theorem negation_relaid :
    (∃ tokens', Scan.scanAll 0 " a\n- 1 ".toList = tokens'.map .ok ∧
      List.Forall₂ Token.Alike
        [⟨.identifier, "a", 0, 1, false⟩, ⟨.symbol .minus, "-", 4, 5, true⟩,
          ⟨.number, "1", 5, 6, false⟩, .endAt 6 false] tokens') ∧
    Grammar.Sides Eq Error.Alike (Program.parse "a//\n-1" 9) (Program.parse " a\n- 1 " 9) := by
  have blank {rest : List Char} (more : Scan.Spacing rest) : Scan.Spacing (' ' :: rest) :=
    .space (by decide +kernel) more
  have newline : Scan.Spacing ['\n'] := .space (by decide +kernel) .nil
  have text : "a//\n-1".toList =
      [] ++ (['a'] ++ (['/', '/', '\n'] ++ (['-'] ++ ([] ++ (['1'] ++ []))))) := by decide
  have text' : " a\n- 1 ".toList =
      [' '] ++ (['a'] ++ (['\n'] ++ (['-'] ++ ([' '] ++ (['1'] ++ [' ']))))) := by decide
  refine layout_is_free (by decide +kernel) ?_ 9
  rw [text, text']
  refine .token rfl rfl ⟨blank .nil, ⟨_, _, rfl, by decide +kernel⟩, by decide⟩ ?_
  refine .token rfl rfl ⟨newline, ⟨_, _, rfl, by decide +kernel⟩, by decide⟩ ?_
  refine .token rfl rfl ⟨blank .nil, ⟨_, _, rfl, by decide +kernel⟩, by decide⟩ ?_
  exact .stop ⟨⟨[' '], [], rfl, blank .nil, .inl rfl⟩, ⟨_, _, rfl, by decide +kernel⟩, by decide⟩

end Scriptlet
