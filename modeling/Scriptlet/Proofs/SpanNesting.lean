import Scriptlet.Proofs.Spans

/-!
# Nesting through templates

The parser of a span counts its levels from zero, on top of the levels that are open around the
template. Since spans hold no templates there are never more than two parsers at work, and the
levels that are open in both are bounded.

* `countedParse` reads a script and counts the open levels of all parsers at work; it lets spans
  hold templates, and fails if a level is one too many;
* `Node.FlatSpans` says of a tree that no span of a template holds a template;
* `nesting_through_templates`: the count never exceeds twice the limit and one more, and every
  tree that is read has such spans.
-/

namespace Scriptlet
namespace Grammar

variable {α : Type} {terms : Terms}

/-! ## Counting open levels -/

/-- Enters a level while `opened` levels are open, and fails with `fault` if `most` are. -/
def counted (most : Nat) (fault : Error) (opened : Nat) (enter : Parse α) : Parse α :=
  if opened < most then enter else throw fault

/-- The levels of the grammar, with `opened` levels open around them. Templates are read with a
count of the levels around them, too. -/
def countedLevels (limit most : Nat) (fault : Error)
    (template : Nat → Token → Except Error Expr) : Nat → Nat → Inner
  | 0, opened =>
    { expr := fun _ => counted most fault opened (tooDeep limit)
      stmt := counted most fault opened (tooDeep limit)
      newExpr := counted most fault opened (tooDeep limit)
      template := template opened }
  | room + 1, opened =>
    (countedLevels limit most fault template room (opened + 1)).level
      (fun parse => counted most fault opened (nested parse)) (template opened)

/-- Reads a template with `opened` levels open around it. Its spans may hold templates again,
so many templates inside of each other. -/
def countedTemplate (limit most : Nat) (fault : Error) :
    Nat → Nat → Token → Except Error Expr
  | 0, _ => fun _ => .error fault
  | nestings + 1, opened =>
    template (reading (wholeSequence
      (countedLevels limit most fault (countedTemplate limit most fault nestings) limit opened)))

/-- Reads a script, and fails with `fault` as soon as more than `most` levels are open, or
more than `nestings` templates inside of each other. -/
def countedParse (limit most : Nat) (fault : Error) (nestings : Nat) (code : String) :
    Except Error Program :=
  reading (program
    (countedLevels limit most fault (countedTemplate limit most fault nestings) limit 0)) 0
    code.toList

namespace Terms

/-- Counting changes nothing as long as the count and the room are within the bound. -/
theorem inners_counted {limit most room opened : Nat} {fault : Error}
    {template : Token → Except Error Expr} {template' : Nat → Token → Except Error Expr}
    (fits : opened + room < most) (all : ∀ part, terms.early part)
    (templates : ∀ {found token}, found ≤ opened + room → terms.Knows token →
      token.kind = .template →
      Gives terms.givesUp (Expr.Every terms.node) (template token) (template' found token)) :
    terms.Inners (levels limit template room)
      (countedLevels limit most fault template' room opened) := by
  have free : opened < most := by omega
  have here {token : Token} : terms.Knows token → token.kind = .template →
      Gives terms.givesUp (Expr.Every terms.node) (template token) (template' opened token) :=
    templates (Nat.le_add_right _ _)
  induction room generalizing terms opened with
  | zero =>
    have full {α : Type} {late : Bool} {took : α → Bool} {good : α → Prop} :
        terms.Follows late took good (tooDeep limit)
          (counted most fault opened (tooDeep limit)) := by
      rw [counted, if_pos free]
      exact follows_tooDeep
    exact ⟨fun _ _ => full, fun _ => full, fun _ => full, here⟩
  | succ room ih =>
    -- Further in one level more is open and there is room for one less.
    have inners : terms.deeper.Inners (levels limit template room)
        (countedLevels limit most fault template' room (opened + 1)) := by
      refine ih (by omega) all (fun within => templates (by omega)) (by omega) ?_
      exact templates (by omega)
    refine Inners.level all (fun {_ _ _ _ _ _} follows => ?_) here inners
    rw [counted, if_pos free]
    exact follows_nested follows

end Terms

section

variable {limit most opened nestings : Nat} {fault : Error}

/-- A span is read the same way on top of `opened` levels, if there is room for its own. -/
theorem counted_span {template : Nat → Token → Except Error Expr} (fits : opened + limit < most)
    (base : Nat) {source : List Char} (unticked : '`' ∉ source) :
    spanExpr limit base source =
      reading (wholeSequence (countedLevels limit most fault template limit opened)) base
        source := by
  have inners : (Terms.ofSpan base source fun _ => False).Inners (levels limit noTemplate limit)
      (countedLevels limit most fault template limit opened) :=
    Terms.inners_counted fits (fun _ => trivial) fun _ known isTemplate =>
      (Terms.ofText_knows known isTemplate).elim
  exact (Terms.gives_spanExpr id (fun _ => trivial) (Terms.ofSpan_stands unticked) inners).eq
    fun _ _ => id

theorem counted_template (fits : opened + limit < most) {token : Token}
    (isTemplate : token.kind = .template) (unticked : token.Unticked) :
    template (spanExpr limit) token =
      countedTemplate limit most fault (nestings + 1) opened token :=
  template_congr fun position _ inside =>
    counted_span fits position fun tick => unticked isTemplate (inside tick)

/-- The levels of a script and those of a span on top of them are within the bound. -/
theorem counted_parse (limit : Nat) (fault : Error) (nestings : Nat) (code : String) :
    Program.parse code limit = countedParse limit (2 * limit + 1) fault (nestings + 1) code := by
  have inners : (Terms.ofScript code fun _ => False).Inners
      (levels limit (template (spanExpr limit)) limit)
      (countedLevels limit (2 * limit + 1) fault
        (countedTemplate limit (2 * limit + 1) fault (nestings + 1)) limit 0) := by
    refine Terms.inners_counted (by omega) (fun _ => trivial) ?_
    intro opened token within known isTemplate
    exact .of_eq (counted_template (by omega) isTemplate (Terms.ofText_knows known))
      fun expr _ => expr.every_of_forall fun _ => trivial
  exact (Terms.gives_parse id (fun _ => trivial) Terms.ofScript_stands inners).eq fun _ _ => id

end

end Grammar

/-! ## Trees -/

/-- Whether a node is no template. -/
def Node.NoTemplate : Node → Prop
  | .expr (.template _ _) => False
  | _ => True

/-- Whether the spans of a node hold no templates, if it is a template. -/
def Node.FlatSpans : Node → Prop
  | .expr (.template _ spans) => ∀ span ∈ spans, span.expr.Every Node.NoTemplate
  | _ => True

theorem Node.noTemplate_expr {expr : Expr} (other : ∀ head spans, expr ≠ .template head spans) :
    Node.NoTemplate (.expr expr) := by
  cases expr with
  | template head spans => exact (other head spans rfl).elim
  | _ => trivial

theorem Node.flatSpans_expr {expr : Expr} (other : ∀ head spans, expr ≠ .template head spans) :
    Node.FlatSpans (.expr expr) := by
  cases expr with
  | template head spans => exact (other head spans rfl).elim
  | _ => trivial

namespace Grammar

/-- What holds of every node but templates holds throughout the expression of a span. -/
theorem every_spanExpr {node : Node → Prop}
    (others : ∀ {expr : Expr}, (∀ head spans, expr ≠ .template head spans) → node (.expr expr))
    (stmts : ∀ stmt, node (.stmt stmt)) {limit base : Nat} {source : List Char}
    (unticked : '`' ∉ source) {expr : Expr} (read : spanExpr limit base source = .ok expr) :
    expr.Every node := by
  let terms : Terms :=
    { Terms.ofSpan base source fun _ => False with node := node, expr := others, stmt := stmts }
  have inners : terms.Inners (levels limit noTemplate limit) (levels limit noTemplate limit) :=
    Terms.inners_levels limit (fun _ => trivial) fun known isTemplate => by
      obtain ⟨_, none, _⟩ := known
      exact (none isTemplate).elim
  have stands {state : State} (starts : State.ofText base source = .ok state) :
      terms.Stands false state := by
    have stands : (Terms.ofSpan base source fun _ => False).Stands false state :=
      Terms.ofSpan_stands unticked starts
    exact ⟨stands.ahead, stands.depth, stands.left⟩
  have gives := Terms.gives_spanExpr id (fun _ => trivial) stands inners
  rw [read] at gives
  exact gives.holds

/-- The templates of a text have flat spans. -/
theorem flat_template {limit : Nat} {token : Token} (isTemplate : token.kind = .template)
    (unticked : token.Unticked) {expr : Expr} (read : template (spanExpr limit) token = .ok expr) :
    expr.Every Node.FlatSpans := by
  have gives : Gives (fun _ => False)
      (IsTemplateOf fun expr => expr.Every Node.NoTemplate ∧ expr.Every Node.FlatSpans)
      (template (spanExpr limit) token) (template (spanExpr limit) token) := by
    refine gives_template fun position source inside => .of_eq rfl fun expr read => ?_
    have plain : '`' ∉ source := fun tick => unticked isTemplate (inside tick)
    exact ⟨every_spanExpr Node.noTemplate_expr (fun _ => trivial) plain read,
      every_spanExpr Node.flatSpans_expr (fun _ => trivial) plain read⟩
  rw [read] at gives
  obtain ⟨head, spans, rfl, each⟩ := gives.holds
  exact ⟨fun span member => (each span member).1,
    (everySpan_iff _).mpr fun span member => (each span member).2⟩

/-- Terms for a reader of a text, at any level, with what holds of its trees. -/
def Terms.ofReader (state : State) : Terms :=
  { Terms.ofText 0 [] Token.Unticked (Token.unticked_endAt · false) fun _ => False with
    depth := fun _ => True
    node := Node.FlatSpans
    expr := Node.flatSpans_expr
    stmt := fun _ => trivial
    bound := state.left }

/-- Every parse of a reader keeps what is known of the tokens, and its trees have flat spans. -/
theorem Entry.ends_flat (limit : Nat) (entry : Entry) {state : State}
    (known : (Terms.ofReader state).ahead state.current state.upcoming) :
    (Terms.ofReader state).Ends (fun _ => entry.takes) (Tree.Every Node.FlatSpans) state
      (entry.run limit state) (entry.run limit state) := by
  have stands : (Terms.ofReader state).Stands false state := ⟨known, trivial, Nat.le_refl _⟩
  refine entry.ends_run limit stands (fun _ => trivial) fun known isTemplate => .of_eq rfl ?_
  obtain ⟨_, unticked, _⟩ := known
  exact fun expr read => flat_template isTemplate unticked read

/-- A reader stands before tokens of its text. -/
theorem Reached.unticked {base : Nat} {text : List Char} {state : State}
    (reached : Reached base text state) :
    state.current.Unticked ∧ ∀ token, .ok token ∈ state.upcoming → token.Unticked := by
  induction reached with
  | @start state starts =>
    have stands : (Terms.ofText base text Token.Unticked (Token.unticked_endAt · false)
        fun _ => False).Stands false state :=
      Terms.ofText_stands (fun _ member => Scan.unticked_of_scanned member) starts
    exact stands.ahead
  | @after state _ limit entry _ _ runs ih =>
    have ends := entry.ends_flat limit ih
    rw [runs] at ends
    cases ends with
    | ok _ _ ahead => exact ahead
  | @afterError state _ limit entry _ _ runs ih =>
    have ends := entry.ends_flat limit ih
    rw [runs] at ends
    cases ends with
    | error _ ahead => exact ahead
    | gaveUp gives _ _ => exact gives.elim

theorem Reached.flat {base limit : Nat} {text : List Char} {state after : State} {entry : Entry}
    {tree : Tree} (reached : Reached base text state)
    (runs : entry.run limit state = .ok tree after) : tree.Every Node.FlatSpans := by
  have ends := entry.ends_flat limit reached.unticked
  rw [runs] at ends
  cases ends with
  | ok holds _ _ => exact holds

end Grammar

open Grammar

theorem Program.parse_flat {code : String} {limit : Nat} {script : Program}
    (read : Program.parse code limit = .ok script) : everyStmt Node.FlatSpans script.body := by
  obtain ⟨state, after, starts, runs⟩ := Program.run_of_parse read
  exact (Reached.start starts).flat runs

/-- While a script is read, the levels that are open in its parser and in the parsers of spans
are never more than twice the limit and one more, also where the limit is what is exceeded. No
tree that is read, by any parse of a reader, has a template in a span of a template. -/
theorem nesting_through_templates (limit : Nat) :
    (∀ (code : String) (fault : Error) (nestings : Nat),
        countedParse limit (2 * limit + 1) fault (nestings + 1) code =
          Program.parse code limit) ∧
      (∀ (code : String) (script : Program), Program.parse code limit = .ok script →
        everyStmt Node.FlatSpans script.body) ∧
      ∀ (base : Nat) (text : List Char) (state : State), Reached base text state →
        ∀ (entry : Entry) (tree : Tree) (after : State),
          entry.run limit state = .ok tree after → tree.Every Node.FlatSpans := by
  refine ⟨fun code fault nestings => ?_, fun code script read => ?_, ?_⟩
  · exact (counted_parse limit fault nestings code).symm
  · exact Program.parse_flat read
  · exact fun _ _ _ reached _ _ _ runs => reached.flat runs

/-- The bound is reached where the span is what exceeds the limit. -/
example : (match countedParse 2 4 (.tooDeep 9) 1 "`$\x7b((a))\x7d`" with
    | .error error => decide (error = .tooDeep 9)
    | .ok _ => false) = true := by
  decide +kernel

/-- Two templates, of which the second stands after a span of the first, and a reader of the
first one. -/
theorem sample_spans_flat :
    (∃ script, Program.parse "`a$\x7bb\x7d` + `$\x7b[c]\x7d`" 3 = .ok script ∧
        everyStmt Node.FlatSpans script.body) ∧
      ∃ state tree after, Reached 5 "`a$\x7bb\x7d`".toList state ∧
        (Entry.expr 2).run 3 state = .ok tree after ∧ tree.Every Node.FlatSpans := by
  constructor
  · have reads : (Program.parse "`a$\x7bb\x7d` + `$\x7b[c]\x7d`" 3).isOk = true := by
      decide +kernel
    cases read : Program.parse "`a$\x7bb\x7d` + `$\x7b[c]\x7d`" 3 with
    | error error =>
      rw [read] at reads
      cases reads
    | ok script => exact ⟨script, rfl, (nesting_through_templates 3).2.1 _ script read⟩
  · have reads : (reading ((Entry.expr 2).run 3) 5 "`a$\x7bb\x7d`".toList).isOk = true := by
      decide +kernel
    unfold reading at reads
    cases starts : State.ofText 5 "`a$\x7bb\x7d`".toList with
    | error error =>
      rw [starts] at reads
      cases reads
    | ok state =>
      rw [starts] at reads
      cases runs : (Entry.expr 2).run 3 state with
      | error error after =>
        dsimp only at reads
        rw [runs] at reads
        cases reads
      | ok tree after =>
        have reached := Reached.start starts
        exact ⟨state, tree, after, reached, runs,
          (nesting_through_templates 3).2.2 _ _ _ reached _ _ _ runs⟩

end Scriptlet
