import Scriptlet.Proofs.Course.Statements
import Scriptlet.Proofs.Recursion

/-!
# The recursion of the grammar

The grammar is recursive: the parses of a level are made from those of the level further in,
and these are the same parses again. `Inner.level` is one round of this recursion. A level is
entered with a check of the nesting or without one (`within`), and the recursion ends in both
cases: every parse further in has fewer tokens left, or begins with one that needs less.

So the recursion has one solution, `unrolled`, with and without a limit. With a limit it is the
grammar that is built up level by level.
-/

namespace Scriptlet
namespace Grammar

variable {α : Type} {terms : Terms} {inner inner' : Inner}
  {template template' : Token → Except Error Expr}

/-- The parses of a level, from those of the level further in and from the way to enter it. -/
def Inner.level (enter : {α : Type} → Parse α → Parse α) (template : Token → Except Error Expr)
    (inner : Inner) : Inner where
  expr least := enter (exprBody inner least)
  stmt := enter (stmtBody inner)
  newExpr := enter (newBody inner)
  template := template

/-- Runs a parse one level further in, if the limit allows for one more. -/
def within (limit : Option Nat) (parse : Parse α) : Parse α := fun state =>
  match limit with
  | none => nested parse state
  | some limit => if state.depth < limit then nested parse state else tooDeep limit state

namespace Terms

variable {pre : Token → Prop} {late : Bool} {took : α → Bool} {good : α → Prop} {x y : Parse α}

theorem follows_within (limit : Option Nat)
    (follows : terms.deeper.FollowsAt pre late took good x y) :
    terms.FollowsAt pre late took good (within limit x) (within limit y) := by
  intro state stands holds
  have entered := follows_nested follows state stands holds
  cases limit with
  | none => exact entered
  | some limit =>
    simp only [within]
    split
    · exact entered
    · exact follows_tooDeep state stands holds

/-- Two levels take the same course if the levels further in do. -/
theorem Inners.level {enter enter' : {α : Type} → Parse α → Parse α}
    (all : ∀ part, terms.early part)
    (entered : ∀ {α : Type} {late : Bool} {took : α → Bool} {good : α → Prop} {x y : Parse α},
      terms.deeper.Follows late took good x y → terms.Follows late took good (enter x) (enter' y))
    (templates : ∀ {token}, terms.Knows token → token.kind = .template →
      Gives terms.givesUp (Expr.Every terms.node) (template token) (template' token))
    (inners : terms.deeper.Inners inner inner') :
    terms.Inners (inner.level enter template) (inner'.level enter' template') where
  expr least _ := entered (follows_exprBody inners (.inr (all _)) least)
  stmt _ := entered (follows_stmtBody inners (.inr (all _)))
  newExpr _ := entered (follows_newBody inners)
  template := templates

end Terms

theorem Gives.refl {givesUp : Error → Prop} {node : Node → Prop} (all : ∀ part, node part)
    (result : Except Error Expr) : Gives givesUp (Expr.Every node) result result :=
  .of_eq rfl fun expr _ => expr.every_of_forall all

/-- The levels of the grammar take the same course if their templates do. -/
theorem Terms.inners_levels {limit : Nat} (room : Nat) (all : ∀ part, terms.early part)
    (templates : ∀ {token}, terms.Knows token → token.kind = .template →
      Gives terms.givesUp (Expr.Every terms.node) (template token) (template' token)) :
    terms.Inners (levels limit template room) (levels limit template' room) := by
  induction room generalizing terms with
  | zero =>
    exact ⟨fun _ _ => follows_tooDeep, fun _ => follows_tooDeep, fun _ => follows_tooDeep,
      templates⟩
  | succ room ih => exact Inners.level all follows_nested templates (ih all templates)

/-- Every parse of a reader takes its course, from what is known of its templates. -/
theorem Entry.ends_run (limit : Nat) (entry : Entry) {state : State}
    (stands : terms.Stands false state) (all : ∀ part, terms.early part)
    (templates : ∀ {token}, terms.Knows token → token.kind = .template →
      Gives terms.givesUp (Expr.Every terms.node) (Grammar.template (spanExpr limit) token)
        (Grammar.template (spanExpr limit) token)) :
    terms.Ends (fun _ => entry.takes) (Tree.Every terms.node) state (entry.run limit state)
      (entry.run limit state) := by
  have inners : terms.Inners
      (levels limit (Grammar.template (spanExpr limit)) (limit - state.depth))
      (levels limit (Grammar.template (spanExpr limit)) (limit - state.depth)) :=
    Terms.inners_levels _ all templates
  rw [Entry.run_eq]
  exact (Terms.follows_entry inners (fun part => .inr (all part)) entry).ends stands

/-! ## Questions to the grammar -/

/-- A use of a parse further in. -/
inductive Question where
  | expr (least : Nat) (state : State)
  | stmt (state : State)
  | newExpr (state : State)
  | template (token : Token)

/-- What a parse further in gives. -/
inductive Answer where
  | expr (result : EStateM.Result Error State Expr)
  | stmt (result : EStateM.Result Error State Stmt)
  | template (result : Except Error Expr)

/-- The answer of a level to a question. -/
def Question.answer : Question → Inner → Answer
  | .expr least state, inner => .expr (inner.expr least state)
  | .stmt state, inner => .stmt (inner.stmt state)
  | .newExpr state, inner => .expr (inner.newExpr state)
  | .template token, inner => .template (inner.template token)

/-- How far a part is from what it begins with: a statement may begin with an expression and
an expression with `new`, but not the other way round. -/
def Part.rank : Part → Nat
  | .newExpr => 1
  | .expr => 2
  | .stmt => 3

/-- How much there is left to do for a question: the tokens count first. -/
def Question.measure : Question → Nat
  | .expr _ state => 3 * state.left + Part.expr.rank
  | .stmt state => 3 * state.left + Part.stmt.rank
  | .newExpr state => 3 * state.left + Part.newExpr.rank
  | .template _ => 0

/-- Whether a parse took a token, if it succeeded, and left its state as it should. -/
def Kept (state : State) : EStateM.Result Error State α → Prop
  | .ok _ after => Moved true state after
  | .error _ after => Stopped state after

/-- Whether an answer left the state as it should. -/
def Question.Regular : Question → Answer → Prop
  | .expr _ state, .expr result | .newExpr state, .expr result => Kept state result
  | .stmt state, .stmt result => Kept state result
  | _, _ => True

namespace Terms

/-- Terms for what is known of all tokens and levels: how many tokens there are left. -/
def counting (bound : Nat) (early : Part → Prop) : Terms where
  ahead _ _ := True
  take _ := trivial
  skip _ := trivial
  stay _ := trivial
  depth _ := True
  givesUp _ := False
  node _ := True
  expr _ := trivial
  stmt _ := trivial
  bound := bound
  early := early

variable {bound : Nat} {early : Part → Prop} {state : State} {took : α → Bool} {good : α → Prop}
  {left right : EStateM.Result Error State α}

/-- Two parses that take the same course, and a token, from a state. -/
theorem eq_kept_of_follows {x y : Parse α}
    (follows : (counting state.left early).Follows false (fun _ => true) good x y) :
    x state = y state ∧ Kept state (x state) := by
  have ends := follows.ends ⟨trivial, trivial, Nat.le_refl _⟩
  refine ⟨ends.eq fun _ => id, ?_⟩
  generalize x state = left, y state = right at ends ⊢
  cases ends with
  | ok _ moved _ => exact moved
  | error stopped _ => exact stopped
  | gaveUp gives _ _ => exact gives.elim

theorem ends_of_kept (same : left = right) (kept : Kept state left) (holds : ∀ a, good a) :
    (counting bound early).deeper.Ends took good state left right := by
  subst same
  cases left with
  | ok a after => exact .ok (holds a) (kept.fewer (took a).toNat_le) trivial
  | error error after => exact .error kept trivial

/-- Answers to smaller questions suffice for the level around them. -/
theorem inners_of_smaller {a b : Inner} {rank : Nat} (some : 0 < rank)
    (ranked : ∀ part, early part → part.rank < rank)
    (smaller : ∀ question : Question, question.measure < 3 * bound + rank →
      question.answer a = question.answer b ∧ question.Regular (question.answer a)) :
    (counting bound early).deeper.Inners a b := by
  have below {late part} {state : State} (may : (counting bound early).deeper.May late part)
      (stands : (counting bound early).deeper.Stands late state) :
      3 * state.left + part.rank < 3 * bound + rank := by
    have within : state.left + late.toNat ≤ bound := stands.left
    -- After a token there is one less to take; before it, only parts of lower rank are used.
    rcases may with rfl | isEarly
    · have low : part.rank ≤ 3 := by cases part <;> decide
      simp only [Bool.toNat_true] at within
      omega
    · have := ranked part isEarly
      omega
  constructor
  case expr =>
    intro late took least may state stands _
    obtain ⟨same, regular⟩ := smaller (.expr least state) (below may stands)
    exact ends_of_kept (Answer.expr.inj same) regular (Expr.every_of_forall fun _ => trivial)
  case stmt =>
    intro late took may state stands _
    obtain ⟨same, regular⟩ := smaller (.stmt state) (below may stands)
    exact ends_of_kept (Answer.stmt.inj same) regular (Stmt.every_of_forall fun _ => trivial)
  case newExpr =>
    intro late took may state stands _
    obtain ⟨same, regular⟩ := smaller (.newExpr state) (below may stands)
    exact ends_of_kept (Answer.expr.inj same) regular (Expr.every_of_forall fun _ => trivial)
  case template =>
    intro token _ _
    have same := (smaller (.template token) (Nat.lt_of_lt_of_le some (Nat.le_add_left _ _))).1
    exact .of_eq (Answer.template.inj same) fun expr _ => expr.every_of_forall fun _ => trivial

end Terms

/-! ## The solution -/

theorem Inner.ext_answer {a b : Inner} (same : ∀ question : Question,
    question.answer a = question.answer b) : a = b := by
  obtain ⟨expr, stmt, newExpr, template⟩ := a
  obtain ⟨expr', stmt', newExpr', template'⟩ := b
  obtain rfl : expr = expr' := by
    funext least state
    exact Answer.expr.inj (same (.expr least state))
  obtain rfl : stmt = stmt' := by
    funext state
    exact Answer.stmt.inj (same (.stmt state))
  obtain rfl : newExpr = newExpr' := by
    funext state
    exact Answer.expr.inj (same (.newExpr state))
  obtain rfl : template = template' := by
    funext token
    exact Answer.template.inj (same (.template token))
  rfl

/-- A round of the recursion answers a question by answers to smaller ones. -/
theorem level_descends (limit : Option Nat) (template : Token → Except Error Expr) :
    Descends Question.answer Question.measure Question.Regular
      (Inner.level (within limit) template) where
  ext := Inner.ext_answer
  step {a b question} smaller := by
    cases question with
    | expr least state =>
      -- An expression may begin with `new`.
      have inners : (Terms.counting state.left (· = .newExpr)).deeper.Inners a b :=
        Terms.inners_of_smaller (by decide) (by rintro _ rfl; decide) smaller
      obtain ⟨same, kept⟩ := Terms.eq_kept_of_follows
        (Terms.follows_within limit (Terms.follows_exprBody inners (.inr rfl) least))
      exact ⟨congrArg Answer.expr same, kept⟩
    | stmt state =>
      -- A statement may begin with an expression.
      have inners : (Terms.counting state.left (· = .expr)).deeper.Inners a b :=
        Terms.inners_of_smaller (by decide) (by rintro _ rfl; decide) smaller
      obtain ⟨same, kept⟩ := Terms.eq_kept_of_follows
        (Terms.follows_within limit (Terms.follows_stmtBody inners (.inr rfl)))
      exact ⟨congrArg Answer.stmt same, kept⟩
    | newExpr state =>
      have inners : (Terms.counting state.left fun _ => False).deeper.Inners a b :=
        Terms.inners_of_smaller (by decide) nofun smaller
      obtain ⟨same, kept⟩ := Terms.eq_kept_of_follows
        (Terms.follows_within limit (Terms.follows_newBody inners))
      exact ⟨congrArg Answer.expr same, kept⟩
    | template token =>
      -- Both sides are computed: comparing the levels first would unfold all of the grammar.
      have same : Answer.template (template token) = Answer.template (template token) := rfl
      exact ⟨same, trivial⟩

/-- So many rounds of the recursion. -/
def rounds (limit : Option Nat) (template : Token → Except Error Expr) (count : Nat) : Inner :=
  (Inner.level (within limit) template)^[count] (levels 0 template 0)

/-- The grammar with its recursion carried out as far as the tokens left can need it. -/
def unrolled (limit : Option Nat) (template : Token → Except Error Expr) : Inner where
  expr least := fun state => (rounds limit template (3 * state.left + 3)).expr least state
  stmt := fun state => (rounds limit template (3 * state.left + 4)).stmt state
  newExpr := fun state => (rounds limit template (3 * state.left + 2)).newExpr state
  template := template

/-- The recursion ends, with or without a limit. -/
theorem unrolled_settles (limit : Option Nat) (template : Token → Except Error Expr) :
    Settles Question.answer Question.measure (Inner.level (within limit) template)
      (unrolled limit template) := by
  refine (level_descends limit template).settles (levels 0 template 0) fun question => ?_
  cases question <;> rfl

theorem unrolled_eq (limit : Option Nat) (template : Token → Except Error Expr) :
    (unrolled limit template).level (within limit) template = unrolled limit template :=
  ((unrolled_settles limit template).unique _).mpr rfl

/-! ## The grammar with a limit -/

namespace Terms

/-- The levels of the grammar take the same course as the recursion with their limit. A level
has as much room as the limit leaves at its depth. -/
theorem inners_guarded {limit room depth : Nat} (fits : room = limit - depth)
    (all : ∀ part, terms.early part) (here : ∀ {found}, terms.depth found → found = depth)
    (templates : ∀ {token}, terms.Knows token → token.kind = .template →
      Gives terms.givesUp (Expr.Every terms.node) (template token) (template' token)) :
    terms.Inners (levels limit template room) (unrolled (some limit) template') := by
  induction room generalizing depth terms with
  | zero =>
    -- Without room the depth has reached the limit, and the check fails, too.
    have full {α : Type} {late took good} {parse : Parse α} :
        terms.Follows late took good (tooDeep limit) (within (some limit) parse) := by
      intro state stands _
      have no : ¬ state.depth < limit := by
        rw [here stands.depth]
        omega
      simp only [within, if_neg no]
      exact follows_tooDeep.ends stands
    have entered : terms.Inners (levels limit template 0)
        ((unrolled (some limit) template').level (within (some limit)) template') :=
      ⟨fun _ _ => full, fun _ => full, fun _ => full, templates⟩
    rwa [unrolled_eq] at entered
  | succ room ih =>
    have inners : terms.deeper.Inners (levels limit template room)
        (unrolled (some limit) template') := by
      have fits : room = limit - (depth + 1) := by omega
      refine ih fits all ?_ templates
      rintro _ ⟨outer, found, rfl⟩
      rw [here found]
    have entered : terms.Inners ((levels limit template room).level nested template)
        ((unrolled (some limit) template').level (within (some limit)) template') := by
      refine Inners.level all (fun {_ _ _ _ _ _} follows => ?_) templates inners
      intro state stands holds
      have yes : state.depth < limit := by
        rw [here stands.depth]
        omega
      simp only [within, if_pos yes]
      exact follows_nested follows state stands holds
    rwa [unrolled_eq] at entered

end Terms

/-- A parse that takes the same course with two levels that do so. -/
def Uniform (parse : Inner → Parse α) : Prop :=
  ∀ {terms : Terms} {inner inner' : Inner}, terms.Inners inner inner' →
    (∀ part, terms.early part) →
    ∃ good : α → Prop, terms.Follows false (fun _ => false) good (parse inner) (parse inner')

theorem uniform_entry (entry : Entry) : Uniform fun inner => entry.body inner := by
  intro terms inner inner' inners all
  exact ⟨_, (Terms.follows_entry inners (fun part => .inr (all part)) entry).freely⟩

theorem uniform_wholeSequence : Uniform wholeSequence := by
  intro terms inner inner' inners all
  exact ⟨_, Terms.follows_wholeSequence inners (.inr (all _))⟩

/-- The grammar that is built up level by level is the recursion with its limit. -/
theorem entering_eq_unrolled {parse : Inner → Parse α} (uniform : Uniform parse) (limit : Nat)
    (template : Token → Except Error Expr) :
    entering limit template parse = parse (unrolled (some limit) template) := by
  funext state
  let terms : Terms :=
    { Terms.counting state.left fun _ => True with depth := (· = state.depth) }
  have inners : terms.Inners (levels limit template (limit - state.depth))
      (unrolled (some limit) template) :=
    Terms.inners_guarded rfl (fun _ => trivial) id fun _ _ => .refl (fun _ => trivial) _
  obtain ⟨good, follows⟩ := uniform inners fun _ => trivial
  exact (follows.ends ⟨trivial, rfl, Nat.le_refl _⟩).eq fun _ => id

end Grammar
end Scriptlet
