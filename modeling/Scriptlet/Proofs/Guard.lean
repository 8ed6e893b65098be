import Scriptlet.Proofs.Spans

/-!
# The limit of nesting only adds failures

A script that is read within the limit is read the same way without any limit, and so are its
errors. The parser without a limit is the recursion of the grammar that enters every level
without a check; that it has one solution is shown where it is unrolled.

* `readScript` reads a script with or without a limit, the spans of its templates included;
* `Terms.inners_unguarded`: a level with a limit takes the same course as one without it, unless
  it finds no room;
* `Program.parse_eq_unguarded` puts this together for whole scripts.
-/

namespace Scriptlet
namespace Grammar

variable {α : Type} {terms : Terms} {template template' : Token → Except Error Expr}

/-- Reads the source of a span, with or without a limit. Spans hold no templates; `deeper` is
what would be made of one. -/
def readSpan (limit : Option Nat) (deeper : Token → Except Error Expr) :
    Nat → List Char → Except Error Expr :=
  reading (wholeSequence (unrolled limit deeper))

/-- Reads a script, with or without a limit. -/
def readScript (limit : Option Nat) (deeper : Token → Except Error Expr) (code : String) :
    Except Error Program :=
  reading (program (unrolled limit (Grammar.template (readSpan limit deeper)))) 0 code.toList

namespace Terms

/-- The levels of the grammar take the same course as the recursion without a limit, unless
they find no room. -/
theorem inners_unguarded {limit : Nat} (room : Nat) (all : ∀ part, terms.early part)
    (gives : terms.givesUp (.tooDeep limit))
    (templates : ∀ {token}, terms.Knows token → token.kind = .template →
      Gives terms.givesUp (Expr.Every terms.node) (template token) (template' token)) :
    terms.Inners (levels limit template room) (unrolled none template') := by
  induction room generalizing terms with
  | zero =>
    have full {α : Type} {late took good} {parse : Parse α} :
        terms.Follows late took good (tooDeep limit) parse :=
      fun _ stands _ => .gaveUp gives ⟨Nat.le_succ _, rfl, List.suffix_rfl⟩ stands.ahead
    exact ⟨fun _ _ => full, fun _ => full, fun _ => full, templates⟩
  | succ room ih =>
    have entered : terms.Inners ((levels limit template room).level nested template)
        ((unrolled none template').level (within none) template') :=
      Inners.level all follows_nested templates (ih all gives templates)
    rwa [unrolled_eq] at entered

end Terms

/-- Whether the levels of the grammar take the same course as the recursion with the bound,
unless they give up, wherever their templates do. -/
structure Agrees (limit : Nat) (bound : Option Nat) (givesUp : Error → Prop) : Prop where
  inners : ∀ {terms : Terms} {template template' : Token → Except Error Expr},
    terms.givesUp = givesUp → (∀ part, terms.early part) →
    (∀ {found}, terms.depth found → found = 0) →
    (∀ {token}, terms.Knows token → token.kind = .template →
      Gives terms.givesUp (Expr.Every terms.node) (template token) (template' token)) →
    terms.Inners (levels limit template limit) (unrolled bound template')

theorem agrees_guarded (limit : Nat) : Agrees limit (some limit) fun _ => False where
  inners _ all here templates :=
    Terms.inners_guarded (Nat.sub_zero limit).symm all here templates

theorem agrees_unguarded (limit : Nat) : Agrees limit none (· = .tooDeep limit) where
  inners same all _ templates :=
    Terms.inners_unguarded limit all (same ▸ rfl) templates

section

variable {limit : Nat} {bound : Option Nat} {givesUp : Error → Prop}
  {deeper : Token → Except Error Expr}

/-- The source of a span has no templates, so it does not matter how they would be read. -/
theorem Agrees.gives_span (agrees : Agrees limit bound givesUp) {base : Nat} {source : List Char}
    (unticked : '`' ∉ source) :
    Gives givesUp (fun _ => True) (spanExpr limit base source)
      (readSpan bound deeper base source) := by
  have inners : (Terms.ofSpan base source givesUp).Inners (levels limit noTemplate limit)
      (unrolled bound deeper) :=
    agrees.inners rfl (fun _ => trivial) id fun known isTemplate =>
      (Terms.ofText_knows known isTemplate).elim
  exact (Terms.gives_spanExpr id (fun _ => trivial) (Terms.ofSpan_stands unticked) inners).weaken
    fun _ _ => trivial

theorem Agrees.gives_template (agrees : Agrees limit bound givesUp) {token : Token}
    (isTemplate : token.kind = .template) (unticked : token.Unticked) :
    Gives givesUp (IsTemplateOf fun _ => True) (Grammar.template (spanExpr limit) token)
      (Grammar.template (readSpan bound deeper) token) :=
  Grammar.gives_template fun _ _ inside =>
    agrees.gives_span fun tick => unticked isTemplate (inside tick)

theorem Agrees.gives_script (agrees : Agrees limit bound givesUp) (code : String) :
    Gives givesUp (fun _ => True) (Program.parse code limit) (readScript bound deeper code) := by
  have inners : (Terms.ofScript code givesUp).Inners
      (levels limit (Grammar.template (spanExpr limit)) limit)
      (unrolled bound (Grammar.template (readSpan bound deeper))) :=
    agrees.inners rfl (fun _ => trivial) id fun known isTemplate =>
      (agrees.gives_template isTemplate (Terms.ofText_knows known)).weaken
        fun expr _ => expr.every_of_forall fun _ => trivial
  exact (Terms.gives_parse id (fun _ => trivial) Terms.ofScript_stands inners).weaken
    fun _ _ => trivial

end

end Grammar

open Grammar

/-- Reading with a limit is the recursion of the grammar with a check at every level. Unless
the check fails, the recursion without it gives the same tree or the same error. Both
recursions have one solution each, and spans are read the same way whatever a template in them
would be. -/
theorem Program.parse_eq_unguarded (code : String) (limit : Nat)
    (deeper : Token → Except Error Expr) :
    (∀ (bound : Option Nat) (template : Token → Except Error Expr),
        Settles Question.answer Question.measure (Inner.level (within bound) template)
          (unrolled bound template)) ∧
      Program.parse code limit = readScript (some limit) deeper code ∧
      (Program.parse code limit ≠ .error (.tooDeep limit) →
        Program.parse code limit = readScript none deeper code) := by
  refine ⟨unrolled_settles, ?_, fun within => ?_⟩
  · exact ((agrees_guarded limit).gives_script code).eq fun _ _ => id
  · refine ((agrees_unguarded limit).gives_script code).eq ?_
    rintro error failed rfl
    exact within failed

/-- Two levels suffice for a negation in a span: the span has levels of its own. -/
theorem negated_span_unguarded :
    Program.parse "`a$\x7b-b\x7d`" 2 ≠ .error (.tooDeep 2) ∧
      Program.parse "`a$\x7b-b\x7d`" 2 = readScript none noTemplate "`a$\x7b-b\x7d`" := by
  have reads : (Program.parse "`a$\x7b-b\x7d`" 2).isOk = true := by decide +kernel
  have within : Program.parse "`a$\x7b-b\x7d`" 2 ≠ .error (.tooDeep 2) := by
    intro failed
    rw [failed] at reads
    cases reads
  exact ⟨within, (Program.parse_eq_unguarded _ 2 noTemplate).2.2 within⟩

end Scriptlet
