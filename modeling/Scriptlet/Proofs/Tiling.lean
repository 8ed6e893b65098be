import Scriptlet.Proofs.Lexemes
import Scriptlet.Proofs.Spacing

/-!
# Tokens tile a text

A scanned text falls into tokens and the white space and comments between them, in the order
of the text and without anything left over. Scanning ends at the end of the text or where
nothing begins that can be completed.

* `Tiled` says how a text falls into tokens;
* `scanUpTo_tiling`: scanning finds such tokens, step by step;
* `scanning_tiles`: they tile every text, up to its end or to the first error.
-/

namespace Scriptlet

open Text (Boundary byteLength)

/-! ## Tilings -/

/-- How a token is written: strings and templates stand between quotes, other tokens as they
are. -/
inductive Token.WrittenAs (token : Token) : List Char → Prop where
  | plain (string : token.kind ≠ .string) (template : token.kind ≠ .template) :
    token.WrittenAs token.lexeme.toList
  | string {quote : Char} (string : token.kind = .string) (isQuote : quote = '"' ∨ quote = '\'') :
    token.WrittenAs (quote :: (token.lexeme.toList ++ [quote]))
  | template (template : token.kind = .template) :
    token.WrittenAs ('`' :: (token.lexeme.toList ++ ['`']))

namespace Scan

/-- Whether a text that begins at byte offset `position` falls into the given tokens, with
white space and comments before each of them. -/
inductive Tiled : Nat → List Char → List Token → Prop where
  | nil {position : Nat} : Tiled position [] []
  | cons {position : Nat} {gap written rest : List Char} {token : Token} {tokens : List Token}
    (spacing : Spacing gap) (some : written ≠ []) (writes : token.WrittenAs written)
    (start : token.start = position + byteLength gap)
    (stop : token.stop = token.start + byteLength written)
    (newline : token.newlineBefore = true ↔ '\n' ∈ gap) (more : Tiled token.stop rest tokens) :
    Tiled position (gap ++ written ++ rest) (token :: tokens)

/-- How a text whose first character is at byte offset `base` falls into tokens: all of it,
with the end of the input as the last token, or up to the place of an error. -/
inductive Tiling (base : Nat) (text : List Char) : List Token → Option Error → Prop where
  | whole {tiled trailing : List Char} {tokens : List Token} {newline : Bool}
    (split : text = tiled ++ trailing) (tiles : Tiled base tiled tokens)
    (trails : Trailing trailing) (breaks : newline = true ↔ '\n' ∈ trailing) :
    Tiling base text (tokens ++ [.endAt (base + byteLength text) newline]) none
  | stuck {tiled gap rest : List Char} {tokens : List Token} {fault : LexicalFault}
    (split : text = tiled ++ gap ++ rest) (tiles : Tiled base tiled tokens)
    (spacing : Spacing gap) (stuck : Stuck fault rest) :
    Tiling base text tokens (some (.lexical fault (base + byteLength (tiled ++ gap))))

/-- A tiling of what follows a token, with the token in front. -/
theorem Tiling.cons {position : Nat} {gap written rest : List Char} {token : Token}
    {tokens : List Token} {error : Option Error} (spacing : Spacing gap) (some : written ≠ [])
    (writes : token.WrittenAs written) (start : token.start = position + byteLength gap)
    (stop : token.stop = token.start + byteLength written)
    (newline : token.newlineBefore = true ↔ '\n' ∈ gap)
    (more : Tiling token.stop rest tokens error) :
    Tiling position (gap ++ written ++ rest) (token :: tokens) error := by
  cases more with
  | @whole tiled trailing tokens _ split tiles trails breaks =>
    have total : token.stop + byteLength rest = position + byteLength (gap ++ written ++ rest) := by
      simp only [stop, start, Text.byteLength_append]
      omega
    rw [total]
    exact .whole (by rw [split]; simp) (.cons spacing some writes start stop newline tiles) trails
      breaks
  | @stuck tiled gap' rest' _ fault split tiles spacing' stuck =>
    have total : token.stop + byteLength (tiled ++ gap') =
        position + byteLength (gap ++ written ++ tiled ++ gap') := by
      simp only [stop, start, Text.byteLength_append]
      omega
    rw [total]
    exact .stuck (by rw [split]; simp) (.cons spacing some writes start stop newline tiles)
      spacing' stuck

/-! ## Tokens in a tiling -/

end Scan

theorem Text.Boundary.after {base position : Nat} {before text : List Char}
    (boundary : Boundary (base + byteLength before) text position) :
    Boundary base (before ++ text) position := by
  obtain ⟨first, second, rfl, rfl⟩ := boundary
  exact ⟨before ++ first, second, by simp, by rw [Text.byteLength_append, Nat.add_assoc]⟩

theorem Text.Boundary.before {base position : Nat} {text : List Char}
    (boundary : Boundary base text position) (after : List Char) :
    Boundary base (text ++ after) position := by
  obtain ⟨first, second, rfl, rfl⟩ := boundary
  exact ⟨first, second ++ after, by simp, rfl⟩

namespace Scan

theorem Tiled.bounds {position : Nat} {text : List Char} {tokens : List Token}
    (tiled : Tiled position text tokens) :
    ∀ token ∈ tokens, position ≤ token.start ∧ token.start < token.stop ∧
      Boundary position text token.start ∧ Boundary position text token.stop := by
  induction tiled with
  | nil => nofun
  | @cons position gap written rest token tokens _ some _ start stop _ _ ih =>
    have size := Text.byteLength_pos some
    have after : token.stop = position + byteLength (gap ++ written) := by
      rw [stop, start, Text.byteLength_append, Nat.add_assoc]
    intro other member
    rcases List.mem_cons.mp member with rfl | later
    · refine ⟨by omega, by omega, ⟨gap, written ++ rest, by simp, start⟩, ?_⟩
      exact ⟨gap ++ written, rest, rfl, after⟩
    · obtain ⟨first, second, atStart, atStop⟩ := ih other later
      rw [after] at atStart atStop
      refine ⟨by omega, second, ?_, ?_⟩
      · exact atStart.after
      · exact atStop.after

theorem Tiled.ordered {position : Nat} {text : List Char} {tokens : List Token}
    (tiled : Tiled position text tokens) :
    tokens.Pairwise fun first second =>
      first.start < second.start ∧ first.stop ≤ second.start := by
  induction tiled with
  | nil => exact .nil
  | @cons position gap written rest token tokens spacing some writes start stop newline more ih =>
    have whole : Tiled position (gap ++ written ++ rest) (token :: tokens) :=
      .cons spacing some writes start stop newline more
    have size := (whole.bounds token List.mem_cons_self).2.1
    refine .cons (fun other later => ?_) ih
    have after := (more.bounds other later).1
    exact ⟨by omega, after⟩

/-! ## Whole texts -/

/-- How the tokens are written that scanning finds. -/
theorem Lexes.writes {written rest lexeme : List Char} {kind : Kind}
    (lexes : Lexes written rest kind lexeme) (start stop : Nat) (newline : Bool) :
    Token.WrittenAs ⟨kind, String.ofList lexeme, start, stop, newline⟩ written := by
  have same (lexeme : List Char) : (String.ofList lexeme).toList = lexeme := String.toList_ofList
  have plain {kind : Kind} {lexeme : List Char} (string : kind ≠ .string)
      (template : kind ≠ .template) :
      Token.WrittenAs ⟨kind, String.ofList lexeme, start, stop, newline⟩ lexeme := by
    have writes : Token.WrittenAs ⟨kind, String.ofList lexeme, start, stop, newline⟩
        (String.ofList lexeme).toList := .plain string template
    rwa [same] at writes
  cases lexes with
  | word => exact plain ofWord_plain.2 ofWord_ne.2
  | whole => exact plain nofun nofun
  | decimal => exact plain nofun nofun
  | symbol => exact plain nofun nofun
  | @string quote _ _ isQuote _ =>
    have writes : Token.WrittenAs ⟨.string, String.ofList lexeme, start, stop, newline⟩
        (quote :: ((String.ofList lexeme).toList ++ [quote])) := .string rfl isQuote
    rwa [same] at writes
  | template =>
    have writes : Token.WrittenAs ⟨.template, String.ofList lexeme, start, stop, newline⟩
        ('`' :: ((String.ofList lexeme).toList ++ ['`'])) := .template rfl
    rwa [same] at writes

/-- The pieces of a text tile it, up to its end or to the first error. -/
theorem scanUpTo_tiling {count position : Nat} {text : List Char} (enough : text.length < count) :
    Tiling position text (untilError (scanUpTo count position text)).1
      (untilError (scanUpTo count position text)).2 := by
  induction count generalizing position text with
  | zero => omega
  | succ count ih =>
    obtain ⟨gap, rest, rfl, spacing, halt⟩ := exists_spacing text
    have gapped := skipGap_spacing spacing false position rest
    rw [scanUpTo, scanNext, gapped, Bool.false_or]
    cases halt with
    | stop =>
      have place : position + byteLength gap = position + byteLength (gap ++ []) := by simp
      simp only [skipGap, isEnd, Token.endAt, beq_self_eq_true, if_true, place]
      exact .whole (List.nil_append _).symm .nil ⟨gap, [], rfl, spacing, .inl rfl⟩ (by simp)
    | @line body within =>
      have place : position + byteLength gap + byteLength ('/' :: '/' :: body) =
          position + byteLength (gap ++ '/' :: '/' :: body) := by
        rw [Text.byteLength_append, Nat.add_assoc]
      simp only [skipGap_halt_line within, isEnd, Token.endAt, beq_self_eq_true, if_true, place]
      refine .whole (List.nil_append _).symm .nil
        ⟨gap, _, rfl, spacing, .inr ⟨body, rfl, within⟩⟩ ?_
      simp [within]
    | @block body within =>
      simp only [skipGap_halt_block within, isEnd, Bool.false_eq_true, if_false, untilError]
      exact .stuck rfl .nil spacing (.comment within)
    | @token char rest isSpace opens =>
      simp only [skipGap_halt_token isSpace opens]
      rcases lexes_or_stuck char rest with ⟨tail, left, kind, lexeme, rfl, lexes⟩ | stuck
      · have isToken : (kind == .eof) = false := beq_eq_false_iff_ne.mpr lexes.kind_ne_eof
        have shorter : left.length < count := by
          simp only [List.length_append, List.length_cons] at enough
          omega
        rw [lexes.scanToken (List.cons_append).symm]
        simp only [Scanned.token, isEnd, isToken, Bool.false_eq_true, if_false, untilError]
        rw [← List.cons_append, ← List.append_assoc]
        exact Tiling.cons spacing lexes.ne_nil (lexes.writes ..) rfl rfl (by simp) (ih shorter)
      · obtain ⟨fault, consumed, left, stuck, refused⟩ := stuck
        simp only [refused, refuse, isEnd, Bool.false_eq_true, if_false, untilError]
        exact .stuck rfl .nil spacing (stuck isSpace)

/-- The order of the tokens in a tiling, and where they are. -/
theorem Tiling.ordered {base : Nat} {text : List Char} {tokens : List Token}
    {error : Option Error} (tiling : Tiling base text tokens error) :
    (∀ token ∈ tokens, Boundary base text token.start ∧ Boundary base text token.stop) ∧
      tokens.Pairwise fun first second =>
        first.start < second.start ∧ first.stop ≤ second.start := by
  cases tiling with
  | @whole tiled trailing tokens newline split tiles _ _ =>
    have inside (token : Token) (member : token ∈ tokens) := tiles.bounds token member
    subst split
    constructor
    · intro token member
      rcases List.mem_append.mp member with earlier | last
      · obtain ⟨_, _, start, stop⟩ := inside token earlier
        exact ⟨start.before trailing, stop.before trailing⟩
      · obtain rfl := List.mem_singleton.mp last
        exact ⟨.atEnd base _, .atEnd base _⟩
    · refine List.pairwise_append.mpr ⟨tiles.ordered, List.pairwise_singleton _ _, ?_⟩
      intro token earlier stop last
      obtain rfl := List.mem_singleton.mp last
      obtain ⟨_, less, _, stop⟩ := inside token earlier
      have bound := stop.bounds.2
      simp only [Token.endAt, Text.byteLength_append]
      omega
  | @stuck tiled gap rest _ fault split tiles _ _ =>
    subst split
    refine ⟨fun token member => ?_, tiles.ordered⟩
    obtain ⟨_, _, start, stop⟩ := tiles.bounds token member
    rw [List.append_assoc]
    exact ⟨start.before _, stop.before _⟩

/-- The tokens of a text, up to the end of the input or to the first error, tile the text.
Their spans are places of the text, one after another. -/
theorem scanning_tiles (base : Nat) (text : List Char) :
    let scanned := untilError (scanAll base text)
    Tiling base text scanned.1 scanned.2 ∧
      (∀ token ∈ scanned.1, Boundary base text token.start ∧ Boundary base text token.stop) ∧
      scanned.1.Pairwise fun first second =>
        first.start < second.start ∧ first.stop ≤ second.start := by
  have tiling : Tiling base text _ _ := scanUpTo_tiling (Nat.lt_succ_self text.length)
  exact ⟨tiling, tiling.ordered⟩

end Scan
end Scriptlet
