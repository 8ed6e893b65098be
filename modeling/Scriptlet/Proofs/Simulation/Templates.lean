import Scriptlet.Proofs.Scanning
import Scriptlet.Proofs.Simulation.Statements

/-!
# Templates side by side

The spans of a template are texts of their own, read by a grammar without templates. Where
two templates have the same text, their spans are the same and begin equally far from the
beginnings of the templates; only the offsets themselves differ.
-/

namespace Scriptlet
namespace Grammar

open Text (byteLength Boundary)

/-! ## Texts of spans -/

namespace Simulation

variable {sim : Simulation} {pre : Token → Prop} {α : Type} {rel : α → α → Prop}

theorem Ends.outcome {left right : EStateM.Result Error State α}
    (ends : sim.Ends rel left right) : Sides rel sim.error (outcome left) (outcome right) := by
  cases ends with
  | ok related _ => exact .ok related
  | error related _ => exact .error related

/-- A parse at the outermost level, from what it does at every level. -/
theorem runs_entering {limit : Nat} {template template' : Token → Except Error Expr}
    (deep : sim.error (.tooDeep limit) (.tooDeep limit))
    (templates : ∀ {a b}, sim.token a b → a.kind = .template →
      Sides (Agreed Expr.WellFormed) sim.error (template a) (template' b))
    {parse : Inner → Parse α}
    (runs : ∀ {inner inner'}, sim.Inners inner inner' → sim.Runs rel (parse inner) (parse inner')) :
    sim.RunsAt pre rel (entering limit template parse) (entering limit template' parse) := by
  intro s t states _
  unfold entering
  rw [← states.depth]
  exact runs (inners_levels deep templates _) s t states trivial

/-- The first tokens of two texts, and all that follow, from the pieces of the texts. -/
theorem sides_ofText {p q : Nat} {text text' : List Char}
    (items : List.Forall₂ (Sides sim.token sim.error) (Scan.scanAll p text)
      (Scan.scanAll q text'))
    (ends : sim.token (.endAt p false) (.endAt q false)) :
    Sides sim.States sim.error (State.ofText p text) (State.ofText q text') := by
  unfold State.ofText
  generalize Scan.scanAll p text = scanned, Scan.scanAll q text' = scanned' at items ⊢
  cases items with
  | nil => exact .ok ⟨ends, .nil, rfl, rfl⟩
  | cons first others =>
    cases first with
    | ok related => exact .ok ⟨related, others, rfl, rfl⟩
    | error related => exact .error related

/-- The expressions of two spans, from the tokens of their texts. -/
theorem sides_spanExpr {limit p q : Nat} {source source' : List Char}
    (deep : sim.error (.tooDeep limit) (.tooDeep limit))
    (starts : Sides sim.States sim.error (State.ofText p source) (State.ofText q source')) :
    Sides (Agreed Expr.WellFormed) sim.error (spanExpr limit p source)
      (spanExpr limit q source') := by
  unfold spanExpr
  generalize State.ofText p source = left, State.ofText q source' = right at starts
  cases starts with
  | error related => exact .error related
  | ok states =>
    have runs : sim.Runs (Agreed Expr.WellFormed) (entering limit noTemplate wholeSequence)
        (entering limit noTemplate wholeSequence) :=
      runs_entering deep (fun token _ => .error (sim.unexpected token rfl))
        fun inners => runs_wholeSequence inners
    exact (runs _ _ states trivial).outcome

end Simulation

/-! ## Templates -/

/-- A relation between the errors of a text that is read at two offsets. -/
structure Placing where
  offsets : Nat → Nat → Prop
  error : Nat → Nat → List Char → Error → Error → Prop
  later : ∀ {p q}, offsets p q → ∀ size, offsets (p + size) (q + size)
  within : ∀ {p q before text e f}, error (p + byteLength before) (q + byteLength before) text e f →
    ∀ after, error p q (before ++ text ++ after) e f
  unexpected : ∀ {p q expected}, offsets p q → expected.arises = true → ∀ found before after,
    error p q (before ++ after) (.unexpected expected found (p + byteLength before))
      (.unexpected expected found (q + byteLength before))

theorem splitOpening_eq_some {text before after : List Char}
    (found : splitOpening text = some (before, after)) :
    text = before ++ '$' :: '\x7b' :: after := by
  induction text generalizing before with
  | nil => cases found
  | cons char rest ih =>
    rw [splitOpening] at found
    split at found
    · next opening =>
      simp only [Bool.and_eq_true, decide_eq_true_eq] at opening
      obtain ⟨rfl, isBrace⟩ := opening
      obtain ⟨tail, rfl⟩ := List.head?_eq_some_iff.mp isBrace
      cases found
      rfl
    · obtain ⟨⟨first, second⟩, found, same⟩ := Option.map_eq_some_iff.mp found
      cases same
      rw [ih found]
      rfl

/-- Where the source of a span begins, where it ends, and where the text after it begins. -/
theorem span_offsets (before source : List Char) (offset : Nat) :
    offset + byteLength before + 2 = offset + byteLength (before ++ ['$', '\x7b']) ∧
      offset + byteLength before + 2 + byteLength source =
        offset + byteLength (before ++ '$' :: '\x7b' :: source) ∧
      offset + byteLength before + 2 + byteLength source + 1 =
        offset + byteLength (before ++ '$' :: '\x7b' :: source ++ ['\x7d']) := by
  have dollar : '$'.utf8Size = 1 := rfl
  have opening : '\x7b'.utf8Size = 1 := rfl
  have closing : '\x7d'.utf8Size = 1 := rfl
  simp only [Text.byteLength_append, Text.byteLength_cons, Text.byteLength_nil, dollar, opening,
    closing]
  omega

namespace Placing

variable {placing : Placing} {expr expr' : Nat → List Char → Except Error Expr}

/-- The spans of a text, which is read at two offsets. -/
theorem sides_readSpans
    (spans : ∀ {p q}, placing.offsets p q → ∀ source,
      Sides (Agreed Expr.WellFormed) (placing.error p q source) (expr p source) (expr' q source))
    (count : Nat) {p q : Nat} (offsets : placing.offsets p q) (text : List Char) :
    Sides (Agreed fun found => everySpan Node.WellFormed found.2) (placing.error p q text)
      (readSpans expr count p text) (readSpans expr' count q text) := by
  induction count generalizing p q text with
  | zero => exact .ok ⟨rfl, trivial⟩
  | succ count ih =>
    simp only [readSpans]
    split
    · exact .ok ⟨rfl, trivial⟩
    next before after found =>
      obtain rfl := splitOpening_eq_some found
      split
      -- a span without end is missed where the text ends
      · have missing : placing.error p q (before ++ '$' :: '\x7b' :: after ++ [])
            (.unexpected (.token (.symbol .closeBrace)) "end of template literal" _)
            (.unexpected (.token (.symbol .closeBrace)) "end of template literal" _) :=
          placing.unexpected offsets rfl _ _ _
        rw [List.append_nil] at missing
        exact .error missing
      next closing rest dropped =>
        obtain ⟨same, closes⟩ := Scan.split_dropWhile dropped
        obtain rfl : closing = '\x7d' := by simpa using closes
        generalize after.takeWhile (· != '\x7d') = source at same ⊢
        subst same
        obtain ⟨opened, closed, passed⟩ := span_offsets before source p
        obtain ⟨opened', closed', passed'⟩ := span_offsets before source q
        split
        -- a span without source is missed where it ends
        · have blank : placing.error p q ((before ++ '$' :: '\x7b' :: source) ++ '\x7d' :: rest)
              (.unexpected .expression "'\x7d'" _) (.unexpected .expression "'\x7d'" _) :=
            placing.unexpected offsets rfl _ _ _
          rw [← closed, ← closed'] at blank
          simpa using Sides.error blank
        · have begun := placing.later (placing.later offsets (byteLength before)) 2
          have span := spans begun source
          generalize expr (p + byteLength before + 2) source = left,
            expr' (q + byteLength before + 2) source = right at span ⊢
          cases span with
          | error related =>
            rw [opened, opened'] at related
            have wide := placing.within related ('\x7d' :: rest)
            simpa using Sides.error wide
          | ok related =>
            obtain ⟨rfl, wellFormed⟩ := related
            have others := ih (placing.later (placing.later begun (byteLength source)) 1) rest
            dsimp only
            generalize readSpans expr count _ rest = left, readSpans expr' count _ rest = right
              at others ⊢
            cases others with
            | error related =>
              rw [passed, passed'] at related
              have wide := placing.within related []
              simpa using Sides.error wide
            | ok related =>
              obtain ⟨rfl, holds⟩ := related
              exact .ok ⟨rfl, wellFormed, holds⟩

/-- The expressions of two templates with the same text. -/
theorem sides_template
    (spans : ∀ {p q}, placing.offsets p q → ∀ source,
      Sides (Agreed Expr.WellFormed) (placing.error p q source) (expr p source) (expr' q source))
    {a b : Token} (lexeme : a.lexeme = b.lexeme)
    (offsets : placing.offsets (a.start + 1) (b.start + 1)) :
    Sides (Agreed Expr.WellFormed)
      (placing.error (a.start + 1) (b.start + 1) a.lexeme.toList) (template expr a)
      (template expr' b) := by
  have sides := sides_readSpans spans a.lexeme.toList.length offsets a.lexeme.toList
  simp only [template, ← lexeme]
  generalize readSpans expr _ _ _ = left, readSpans expr' _ _ _ = right at sides ⊢
  cases sides with
  | error related => exact .error related
  | ok related =>
    obtain ⟨rfl, holds⟩ := related
    exact .ok ⟨rfl, trivial, holds⟩

end Placing
end Grammar
end Scriptlet
