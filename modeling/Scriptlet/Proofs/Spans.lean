import Scriptlet.Proofs.Lexemes
import Scriptlet.Proofs.Unrolling

/-!
# Spans hold no templates

The text of a template has no backtick, and a text without a backtick has no template among its
tokens. So the source of a span is a text without templates, and it does not matter how its
parser would read one.

* `unticked_of_scanned`: no template token of a text has a backtick in its own text;
* `not_template_of_unticked`: a text without a backtick has no template token;
* `gives_readSpans`: two ways to read the spans of a template take the same course if they do so
  for the source of every span, and that is a part of the text of the template;
* `Terms.ofText` and `gives_reading` follow the parse of a whole text.
-/

namespace Scriptlet

open Text (byteLength)

/-! ## Tokens -/

/-- Whether the text of a token has no backtick, if it is a template. -/
def Token.Unticked (token : Token) : Prop :=
  token.kind = .template → '`' ∉ token.lexeme.toList

theorem Token.unticked_endAt (stop : Nat) (newline : Bool) : (endAt stop newline).Unticked :=
  nofun

namespace Scan

theorem Lexes.unticked {written rest lexeme : List Char} {kind : Kind}
    (lexes : Lexes written rest kind lexeme) (isTemplate : kind = .template) : '`' ∉ lexeme := by
  cases lexes with
  | word => exact (ofWord_ne.2 isTemplate).elim
  | template within => exact within
  | whole | decimal | string | symbol => cases isTemplate

theorem unticked_scanNext {position : Nat} {text : List Char} {token : Token}
    (found : (scanNext position text).item = .ok token) : token.Unticked := by
  unfold scanNext at found
  split at found
  · cases found
    exact Token.unticked_endAt _ _
  · cases found
  · next newline start char rest _ =>
    rcases lexes_or_stuck char rest with ⟨tail, left, kind, lexeme, rfl, lexes⟩ | stuck
    · rw [lexes.scanToken List.cons_append.symm] at found
      cases found
      intro isTemplate
      rw [String.toList_ofList]
      exact lexes.unticked isTemplate
    · obtain ⟨fault, consumed, left, -, refused⟩ := stuck
      rw [refused] at found
      cases found

theorem unticked_of_scanned {count position : Nat} {text : List Char} {token : Token}
    (member : .ok token ∈ scanUpTo count position text) : token.Unticked := by
  induction count generalizing position text with
  | zero => cases member
  | succ count ih =>
    rw [scanUpTo] at member
    split at member
    · exact unticked_scanNext (List.mem_singleton.mp member).symm
    · rcases List.mem_cons.mp member with first | later
      · exact unticked_scanNext first.symm
      · exact ih later

theorem not_template_of_unticked {count position : Nat} {text : List Char} {token : Token}
    (unticked : '`' ∉ text) (member : .ok token ∈ scanUpTo count position text) :
    token.kind ≠ .template := by
  intro isTemplate
  have known : token.From position text := scanUpTo_from member
  obtain ⟨before, after, rfl, -⟩ := known.template isTemplate
  exact unticked (by simp)

end Scan

namespace Grammar

variable {α : Type} {givesUp : Error → Prop}

/-! ## Templates -/

section

variable {good : Expr → Prop} {expr expr' : Nat → List Char → Except Error Expr}

/-- Two ways to read spans that take the same course for every part of a text. -/
theorem gives_readSpans {text : List Char}
    (spans : ∀ position source, source ⊆ text →
      Gives givesUp good (expr position source) (expr' position source))
    (count position : Nat) :
    Gives givesUp (fun found => ∀ span ∈ found.2, good span.expr)
      (readSpans expr count position text) (readSpans expr' count position text) := by
  induction count generalizing position text with
  | zero => exact .ok (List.forall_mem_nil _)
  | succ count ih =>
    simp only [readSpans]
    split
    · exact .ok (List.forall_mem_nil _)
    next before after found =>
      obtain rfl := splitOpening_eq_some found
      split
      · exact .error _
      next closing rest dropped =>
        obtain ⟨same, -⟩ := Scan.split_dropWhile dropped
        generalize after.takeWhile (· != '\x7d') = source at same ⊢
        subst same
        split
        · exact .error _
        -- The source of the span and the text behind it are parts of the whole text.
        have inside : source ⊆ before ++ '$' :: '\x7b' :: (source ++ closing :: rest) := by
          intro char member
          simp [member]
        have beyond : rest ⊆ before ++ '$' :: '\x7b' :: (source ++ closing :: rest) := by
          intro char member
          simp [member]
        have span := spans (position + byteLength before + 2) source inside
        generalize expr (position + byteLength before + 2) source = left,
          expr' (position + byteLength before + 2) source = right at span ⊢
        cases span with
        | error error => exact .error error
        | gaveUp gives => exact .gaveUp gives
        | ok holds =>
          have later (place : Nat) (part : List Char) (within : part ⊆ rest) :
              Gives givesUp good (expr place part) (expr' place part) :=
            spans place part (List.Subset.trans within beyond)
          have others := ih later (position + byteLength before + 2 + byteLength source + 1)
          dsimp only
          generalize readSpans expr count _ rest = left, readSpans expr' count _ rest = right
            at others ⊢
          cases others with
          | error error => exact .error error
          | gaveUp gives => exact .gaveUp gives
          | ok each => exact .ok (List.forall_mem_cons.mpr ⟨holds, each⟩)

/-- Whether an expression is a template whose spans have a property. -/
def IsTemplateOf (good : Expr → Prop) (expr : Expr) : Prop :=
  ∃ head spans, expr = .template head spans ∧ ∀ span ∈ spans, good span.expr

theorem gives_template {token : Token}
    (spans : ∀ position source, source ⊆ token.lexeme.toList →
      Gives givesUp good (expr position source) (expr' position source)) :
    Gives givesUp (IsTemplateOf good) (template expr token) (template expr' token) := by
  have gives := gives_readSpans spans token.lexeme.toList.length (token.start + 1)
  simp only [template]
  generalize readSpans expr _ _ _ = left, readSpans expr' _ _ _ = right at gives ⊢
  cases gives with
  | error error => exact .error error
  | gaveUp gives => exact .gaveUp gives
  | ok each => exact .ok ⟨_, _, rfl, each⟩

theorem template_congr {token : Token}
    (same : ∀ position source, source ⊆ token.lexeme.toList →
      expr position source = expr' position source) :
    template expr token = template expr' token := by
  have gives : Gives (fun _ => False) (IsTemplateOf fun _ => True) (template expr token)
      (template expr' token) :=
    gives_template fun position source inside =>
      .of_eq (same position source inside) fun _ _ => trivial
  exact gives.eq fun _ _ => id

end

/-! ## Whole texts -/

/-- A parse of a text from its first token on. -/
def reading (parse : Parse α) (base : Nat) (text : List Char) : Except Error α :=
  match State.ofText base text with
  | .error error => .error error
  | .ok state => outcome (parse state)

namespace Terms

/-- Terms for the parse of a text whose tokens have a property, from its first token on. -/
def ofText (base : Nat) (text : List Char) (known : Token → Prop)
    (ends : ∀ stop, known (.endAt stop false)) (givesUp : Error → Prop) : Terms where
  ahead current upcoming := known current ∧ ∀ token, .ok token ∈ upcoming → known token
  take known := ⟨known.2 _ List.mem_cons_self,
    fun token member => known.2 token (List.mem_cons_of_mem _ member)⟩
  skip known := ⟨known.1, fun token member => known.2 token (List.mem_cons_of_mem _ member)⟩
  stay _ := ⟨ends _, nofun⟩
  depth := (· = 0)
  givesUp := givesUp
  node _ := True
  expr _ := trivial
  stmt _ := trivial
  bound := (Scan.scanAll base text).length
  early _ := True

theorem ofText_knows {base : Nat} {text : List Char} {known : Token → Prop}
    {ends : ∀ stop, known (.endAt stop false)} {token : Token}
    (ahead : (ofText base text known ends givesUp).Knows token) : known token := by
  obtain ⟨_, first, _⟩ := ahead
  exact first

theorem ofText_stands {base : Nat} {text : List Char} {known : Token → Prop}
    {ends : ∀ stop, known (.endAt stop false)} {state : State}
    (each : ∀ token, .ok token ∈ Scan.scanAll base text → known token)
    (starts : State.ofText base text = .ok state) :
    (ofText base text known ends givesUp).Stands false state := by
  obtain ⟨items, stop, scanned, -, -⟩ := Scan.scanAll_eq base text
  unfold State.ofText at starts
  split at starts
  · next none => simp [scanned] at none
  · next token upcoming scanned =>
    cases starts
    rw [scanned] at each
    refine ⟨⟨each token List.mem_cons_self, fun other member =>
      each other (List.mem_cons_of_mem _ member)⟩, rfl, ?_⟩
    simp only [State.left, ofText, scanned, List.length_cons, Bool.toNat_false]
    split <;> omega
  · cases starts

/-- Terms for the source of a span, which has no templates. -/
def ofSpan (base : Nat) (source : List Char) (givesUp : Error → Prop) : Terms :=
  ofText base source (·.kind ≠ .template) (fun _ => nofun) givesUp

theorem ofSpan_stands {base : Nat} {source : List Char} {state : State} (unticked : '`' ∉ source)
    (starts : State.ofText base source = .ok state) :
    (ofSpan base source givesUp).Stands false state :=
  ofText_stands (fun _ member => Scan.not_template_of_unticked unticked member) starts

/-- Terms for a script, whose templates have no backtick in their text. -/
def ofScript (code : String) (givesUp : Error → Prop) : Terms :=
  ofText 0 code.toList Token.Unticked (Token.unticked_endAt · false) givesUp

theorem ofScript_stands {code : String} {state : State}
    (starts : State.ofText 0 code.toList = .ok state) :
    (ofScript code givesUp).Stands false state :=
  ofText_stands (fun _ member => Scan.unticked_of_scanned member) starts

variable {terms : Terms} {late : Bool} {took : α → Bool} {good : α → Prop}

theorem Ends.outcome {state : State} {left right : EStateM.Result Error State α}
    (ends : terms.Ends took good state left right) :
    Gives terms.givesUp good (outcome left) (outcome right) := by
  cases ends with
  | ok holds _ _ => exact .ok holds
  | error _ _ => exact .error _
  | gaveUp gives _ _ => exact .gaveUp gives

/-- Two parses of a text, from what they do at its first token. -/
theorem gives_reading {base : Nat} {text : List Char} {x y : Parse α}
    (starts : ∀ {state}, State.ofText base text = .ok state → terms.Stands false state)
    (follows : terms.Follows false took good x y) :
    Gives terms.givesUp good (reading x base text) (reading y base text) := by
  unfold reading
  split
  · exact .error _
  · next state begun => exact (follows.ends (starts begun)).outcome

/-- At the outermost level all of the limit is left. -/
theorem follows_entering {limit : Nat} {template : Token → Except Error Expr}
    {parse : Inner → Parse α} {y : Parse α} (outermost : ∀ {depth}, terms.depth depth → depth = 0)
    (follows : terms.Follows late took good (parse (levels limit template limit)) y) :
    terms.Follows late took good (entering limit template parse) y := by
  intro state stands holds
  have room : limit - state.depth = limit := by rw [outermost stands.depth, Nat.sub_zero]
  unfold entering
  rw [room]
  exact follows state stands holds

variable {limit : Nat} {inner : Inner} (outermost : ∀ {depth}, terms.depth depth → depth = 0)
  (all : ∀ part, terms.early part)

include outermost all

/-- The expression of a span, from what the levels of its parser do. -/
theorem gives_spanExpr {base : Nat} {source : List Char}
    (starts : ∀ {state}, State.ofText base source = .ok state → terms.Stands false state)
    (inners : terms.Inners (levels limit noTemplate limit) inner) :
    Gives terms.givesUp (Expr.Every terms.node) (spanExpr limit base source)
      (reading (wholeSequence inner) base source) := by
  have follows : terms.Follows false (fun _ => false) (Expr.Every terms.node)
      (entering limit noTemplate wholeSequence) (wholeSequence inner) :=
    follows_entering outermost (follows_wholeSequence inners (.inr (all _)))
  exact gives_reading starts follows

/-- The tree of a script, from what the levels of its parser do. -/
theorem gives_parse {code : String}
    (starts : ∀ {state}, State.ofText 0 code.toList = .ok state → terms.Stands false state)
    (inners : terms.Inners (levels limit (template (spanExpr limit)) limit) inner) :
    Gives terms.givesUp (fun script => everyStmt terms.node script.body) (Program.parse code limit)
      (reading (program inner) 0 code.toList) := by
  have follows : terms.Follows false (fun _ => false)
      (fun script => everyStmt terms.node script.body) (parseProgram limit) (program inner) :=
    follows_entering outermost (follows_program inners (.inr (all _)))
  exact gives_reading starts follows

end Terms
end Grammar
end Scriptlet
