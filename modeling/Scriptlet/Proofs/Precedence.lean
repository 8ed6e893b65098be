import Scriptlet.Proofs.Precedence.Completeness
import Scriptlet.Proofs.Precedence.Soundness
import Scriptlet.Proofs.Scanning

/-!
# The grammar of expressions

On a text of one line, a plain expression is read exactly when the tokens spell it and it
respects the binding powers, unless the nesting is too deep. Soundness and completeness of
the loop over suffixes are joined here with what scanning guarantees.
-/

namespace Scriptlet
namespace Grammar

variable {limit base : Nat} {text : List Char} {tokens : List Token} {stop : Token}

theorem template_not_plain {expr : Nat → List Char → Except Error Expr} {token : Token}
    {result : Expr} (made : template expr token = .ok result) : ¬ result.Plain true := by
  unfold template at made
  dsimp only at made
  split at made
  · cases made
  · cases made
    nofun

/-- The tokens of a scanned text on one line are tokens inside of it. -/
theorem inside_of_scanAll (scanned : Scan.scanAll base text = (tokens ++ [stop]).map .ok)
    (oneLine : ∀ token ∈ tokens, token.newlineBefore = false) :
    stop.kind = .eof ∧ ∀ token ∈ tokens, token.Inside := by
  obtain ⟨items, last, same, isEnd, inside⟩ := Scan.scanAll_eq base text
  rw [scanned, List.map_append] at same
  obtain ⟨rfl, lastSame⟩ := List.append_inj' same rfl
  cases lastSame
  refine ⟨isEnd, fun token member => ⟨inside token (List.mem_map_of_mem member),
    oneLine token member, ?_⟩⟩
  have scannedToken : Except.ok token ∈ Scan.scanAll base text := by
    rw [scanned]
    exact List.mem_map_of_mem (List.mem_append_left _ member)
  exact (Scan.scanUpTo_from scannedToken).truth

theorem parseExpr_over (least depth : Nat) (tokens : List Token) :
    parseExpr least limit (State.over stop depth tokens) =
      (levels limit (template (spanExpr limit)) (limit - depth)).expr least
        (State.over stop depth tokens) := by
  cases tokens <;> rfl

/-- On a text of one line, and where the nesting is not too deep, a plain expression is read
up to the end exactly if the tokens spell it and it respects the binding powers. -/
theorem parseExpr_eq_ok_iff {state : State} {expr : Expr}
    (scanned : Scan.scanAll base text = (tokens ++ [stop]).map .ok)
    (oneLine : ∀ token ∈ tokens, token.newlineBefore = false)
    (started : State.ofText base text = .ok state) (plain : expr.Plain false)
    (shallow : ∀ final, parseExpr 0 limit state ≠ .error (.tooDeep limit) final) :
    (∃ final, parseExpr 0 limit state = .ok expr final ∧ final.current.kind = .eof) ↔
      Spells expr tokens ∧ expr.Grouped := by
  obtain ⟨isEnd, inside⟩ := inside_of_scanAll scanned oneLine
  obtain rfl : State.over stop 0 tokens = state :=
    Except.ok.inj ((ofText_eq_over scanned).symm.trans started)
  rw [spells_iff_takes]
  rw [parseExpr_over] at shallow ⊢
  constructor
  · rintro ⟨final, ran, ended⟩
    have sound : InnerSound stop (levels limit (template (spanExpr limit)) (limit - 0)) :=
      innerSound_levels isEnd (fun _ _ => template_not_plain) _
    obtain ⟨left, taken, rfl, _, grouped, _⟩ := sound.expr inside ran plain.inBrackets
    cases left with
    | nil => exact ⟨taken, grouped⟩
    | cons token rest =>
      exact absurd ended (inside token (taken.suffix.subset List.mem_cons_self)).notEnd
  · rintro ⟨taken, grouped⟩
    have found : Found limit (template (spanExpr limit)) stop expr :=
      (found_of_plain plain grouped).1 rfl
    have noSuffix : (([] : List Token).headD stop).kind.suffix = .none := by
      rw [List.headD_nil, isEnd]; rfl
    rcases found.item oneLine taken noSuffix with ran | ⟨final, deep⟩
    · exact ⟨_, ran, isEnd⟩
    · exact absurd deep (shallow final)

/-- The tokens of `a=-b**c?d:(e,f)[g]`. -/
def sampleTokens : List Token :=
  [⟨.identifier, "a", 0, 1, false⟩, ⟨.symbol .equals, "=", 1, 2, false⟩,
   ⟨.symbol .minus, "-", 2, 3, false⟩, ⟨.identifier, "b", 3, 4, false⟩,
   ⟨.symbol .asteriskAsterisk, "**", 4, 6, false⟩, ⟨.identifier, "c", 6, 7, false⟩,
   ⟨.symbol .question, "?", 7, 8, false⟩, ⟨.identifier, "d", 8, 9, false⟩,
   ⟨.symbol .colon, ":", 9, 10, false⟩, ⟨.symbol .openParen, "(", 10, 11, false⟩,
   ⟨.identifier, "e", 11, 12, false⟩, ⟨.symbol .comma, ",", 12, 13, false⟩,
   ⟨.identifier, "f", 13, 14, false⟩, ⟨.symbol .closeParen, ")", 14, 15, false⟩,
   ⟨.symbol .openBracket, "[", 15, 16, false⟩, ⟨.identifier, "g", 16, 17, false⟩,
   ⟨.symbol .closeBracket, "]", 17, 18, false⟩]

/-- What they are read as: the power is taken of the negated operand. -/
def sampleExpr : Expr :=
  .assign (.identifier "a")
    (.conditional (.binary .power (.unary .minus (.identifier "b")) (.identifier "c"))
      (.identifier "d")
      (.index (.parenthesized (.sequence [.identifier "e", .identifier "f"]))
        (.identifier "g")))

/-- Whether reading gave a result. -/
def isOk {α : Type} : EStateM.Result Error State α → Bool
  | .ok _ _ => true
  | .error _ _ => false

/-- The sample is read as the tree that respects the binding powers. -/
theorem sampleExpr_read :
    Scan.scanAll 0 "a=-b**c?d:(e,f)[g]".toList =
        (sampleTokens ++ [Token.endAt 18 false]).map .ok ∧
      ∃ final, parseExpr 0 maxNesting (State.over (.endAt 18 false) 0 sampleTokens) =
        .ok sampleExpr final ∧ final.current.kind = .eof := by
  have scanned : Scan.scanAll 0 "a=-b**c?d:(e,f)[g]".toList =
      (sampleTokens ++ [Token.endAt 18 false]).map .ok := by decide +kernel
  have plain : sampleExpr.Plain false := by
    refine .assign (.identifier _) (.conditional (.binary (.unary (.identifier _)) (.identifier _))
      (.identifier _) (.index (.parenthesized (.sequence (by decide) ?_)) (.identifier _)))
    rintro member (_ | ⟨_, _ | ⟨_, ⟨⟩⟩⟩)
    · exact .identifier _
    · exact .identifier _
  have spelled : Spells sampleExpr sampleTokens := by
    simp [Spells, sampleExpr, sampleTokens, Expr.pieces, sequencePieces, Piece.Fits, UnaryOp.kind,
      BinaryOp.kind]
  have grouped : sampleExpr.Grouped := by
    simp [Expr.Grouped, sampleExpr, Expr.Every, everyExpr, Node.BindsOperands, Expr.bindsOperands,
      Expr.isTarget, Expr.fits, Expr.yields, conditionalPower, assignmentPowers, operandPower,
      BinaryOp.powers]
  have succeeds : isOk (parseExpr 0 maxNesting (State.over (.endAt 18 false) 0 sampleTokens)) =
      true := by decide +kernel
  refine ⟨scanned, (parseExpr_eq_ok_iff scanned (by decide) (ofText_eq_over scanned) plain ?_).mpr
    ⟨spelled, grouped⟩⟩
  intro final failed
  rw [failed] at succeeds
  cases succeeds

end Grammar
end Scriptlet
