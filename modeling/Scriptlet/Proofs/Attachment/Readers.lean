import Scriptlet.Expr.Display
import Scriptlet.Proofs.Attachment.Statements
import Scriptlet.Proofs.Balance

/-!
# What readers decide for ambiguous words

Whatever a reader reads, `in` belongs to the loop in whose header it stands and `else` to the
nearest condition. That rests on the setting of `in` where a statement begins, which no header
around the statement reaches.

* `Entry.watched` is a parse of a reader that does anything else where a statement begins while
  `in` is no operator;
* `in_belongs_to_loop`: no loop of a tree has an open `in` in its head, and no parse of a reader
  changes if it is watched;
* `else_belongs_to_nearest_if`: no condition with `else` has one before the word that could take it.
-/

namespace Scriptlet
namespace Grammar

variable {node : Node → Prop} {inner inner' : Inner}

/-! ## Watched statements -/

/-- The parses of a level, with `other` for a statement that begins where `in` is no operator. -/
def Inner.watched (other : Parse Stmt) (inner : Inner) : Inner where
  expr := inner.expr
  stmt := fun state => if state.allowIn then inner.stmt state else other state
  newExpr := inner.newExpr
  template := inner.template

/-- The levels of the grammar, with their statements watched. -/
def watchedLevels (other : Parse Stmt) (limit : Nat) (template : Token → Except Error Expr) :
    Nat → Inner
  | 0 => (levels limit template 0).watched other
  | room + 1 => ((watchedLevels other limit template room).level nested template).watched other

/-- Runs a parse with watched levels, as many as the nesting of the state leaves. -/
def watchedEntering {α : Type} (other : Parse Stmt) (limit : Nat)
    (template : Token → Except Error Expr) (parse : Inner → Parse α) : Parse α := fun state =>
  parse (watchedLevels other limit template (limit - state.depth)) state

/-- A parse that a reader can start, with statements watched inside and outside of spans. -/
def Entry.watched (other : Parse Stmt) (limit : Nat) (entry : Entry) : Parse Tree :=
  watchedEntering other limit
    (Grammar.template (reading (watchedEntering other limit noTemplate wholeSequence)))
    fun inner => entry.body inner

theorem State.ofText_allowIn {base : Nat} {text : List Char} {state : State}
    (starts : State.ofText base text = .ok state) : state.allowIn = true := by
  unfold State.ofText at starts
  split at starts <;> cases starts <;> rfl

theorem Met.outcome {α : Type} {allowed : Bool} {good : α → Prop}
    {left right : EStateM.Result Error State α} (met : Met allowed (fun a _ => good a) left right) :
    Gives (fun _ => False) good (outcome left) (outcome right) := by
  cases met with
  | ok holds _ => exact .ok holds
  | error error _ => exact .error error

namespace Attaching

theorem watched (inners : Attaching node inner inner') (other : Parse Stmt) :
    Attaching node inner (inner'.watched other) where
  settled := inners.settled
  expr := inners.expr
  stmt state on holds := by
    have same : (inner'.watched other).stmt state = inner'.stmt state := if_pos on
    rw [same]
    exact inners.stmt state on holds
  newExpr := inners.newExpr
  template := inners.template

theorem level {template template' : Token → Except Error Expr}
    (inners : Attaching node inner inner')
    (templates : ∀ token,
      Gives (fun _ => False) (Expr.Attached node false) (template token) (template' token)) :
    Attaching node (inner.level nested template) (inner'.level nested template') where
  settled := inners.settled
  expr least := meets_nested (inners.exprBody least)
  stmt := meets_nested inners.stmtBody
  newExpr := meets_nested inners.newBody
  template := templates

theorem wholeSequence (inners : Attaching node inner inner') :
    Meets true (Expr.Every node) (wholeSequence inner) (wholeSequence inner') :=
  inners.sequence.passing fun _ known => meets_expecting fun _ => meets_value known.every

theorem entry (inners : Attaching node inner inner') (entry : Entry) :
    Meets true (Tree.Every node) (entry.body inner) (entry.body inner') := by
  have stmt : Meets true (Stmt.Every node) inner.stmt inner'.stmt :=
    inners.stmt.weaken fun _ _ read => read.every
  cases entry with
  | expr least => exact (inners.expr least).passing fun _ known => meets_value known.every
  | sequence => exact inners.sequence.passing fun _ known => meets_value known.every
  | stmt => exact stmt.passing fun _ every => meets_value ⟨every, trivial⟩
  | stmts => exact inners.stmtList.passing fun _ body => meets_value body
  | block => exact inners.block.passing fun _ body => meets_value body
  | program =>
    have whole : Meets true (fun script : Program => everyStmt node script.body) (program inner)
        (program inner') :=
      inners.stmtList.passing fun _ body => meets_expecting fun _ => meets_value body
    exact whole.passing fun _ body => meets_value body

end Attaching

section

variable (settled : ∀ {part : Node}, part.HeadsClosed → part.IfsClosed → node part)
  (other : Parse Stmt) (limit : Nat)

include settled

theorem attaching_levels {template template' : Token → Except Error Expr} (room : Nat)
    (templates : ∀ token,
      Gives (fun _ => False) (Expr.Attached node false) (template token) (template' token)) :
    Attaching node (levels limit template room) (watchedLevels other limit template' room) := by
  induction room with
  | zero =>
    have full : Attaching node (levels limit template 0) (levels limit template' 0) :=
      ⟨settled, fun _ => meets_tooDeep, meets_tooDeep, meets_tooDeep, templates⟩
    exact full.watched other
  | succ room ih => exact (ih.level templates).watched other

/-- The expression of a span is read with `in` as an operator, whatever stands around the
template. -/
theorem gives_watchedSpan (base : Nat) (source : List Char) :
    Gives (fun _ => False) (Expr.Every node) (spanExpr limit base source)
      (reading (watchedEntering other limit noTemplate wholeSequence) base source) := by
  show Gives _ _ (reading (entering limit noTemplate wholeSequence) base source) _
  unfold reading
  split
  · exact .error _
  · next state starts =>
    have inners : Attaching node (levels limit noTemplate (limit - state.depth))
        (watchedLevels other limit noTemplate (limit - state.depth)) :=
      attaching_levels settled other limit _ fun _ => .error _
    exact (inners.wholeSequence state (State.ofText_allowIn starts) trivial).outcome

theorem gives_watchedTemplate (token : Token) :
    Gives (fun _ => False) (Expr.Attached node false) (template (spanExpr limit) token)
      (template (reading (watchedEntering other limit noTemplate wholeSequence)) token) := by
  have gives : Gives (fun _ => False) (IsTemplateOf (Expr.Every node))
      (template (spanExpr limit) token)
      (template (reading (watchedEntering other limit noTemplate wholeSequence)) token) :=
    gives_template fun position source _ => gives_watchedSpan settled other limit position source
  refine gives.weaken ?_
  rintro _ ⟨head, spans, rfl, each⟩
  exact .of_brackets ⟨settled trivial trivial, (everySpan_iff _).mpr each⟩ rfl

/-- Every parse of a reader does the same with watched statements, where `in` is an operator. -/
theorem Entry.meets (entry : Entry) :
    Meets true (Tree.Every node) (entry.run limit) (entry.watched other limit) := by
  intro state on holds
  have inners : Attaching node
      (levels limit (template (spanExpr limit)) (limit - state.depth))
      (watchedLevels other limit
        (template (reading (watchedEntering other limit noTemplate wholeSequence)))
        (limit - state.depth)) :=
    attaching_levels settled other limit _ (gives_watchedTemplate settled other limit)
  rw [Entry.run_eq]
  exact inners.entry entry state on holds

end

/-! ## Readers -/

section

variable {base : Nat} {text : List Char} {state : State}

/-- A reader stands where `in` is an operator, also after errors. -/
theorem Reached.allowIn (reached : Reached base text state) : state.allowIn = true := by
  induction reached with
  | start starts => exact State.ofText_allowIn starts
  | @after state _ limit entry _ _ runs ih =>
    have restores := entry.run_restores limit state
    rw [runs] at restores
    exact restores.2.trans ih
  | @afterError state _ limit entry _ _ runs ih =>
    have restores := entry.run_restores limit state
    rw [runs] at restores
    exact restores.2.trans ih

/-- What follows from the attachment of words holds throughout the trees of a reader. -/
theorem Reached.attached (settled : ∀ {part : Node}, part.HeadsClosed → part.IfsClosed → node part)
    (reached : Reached base text state) {limit : Nat} {entry : Entry} {tree : Tree} {after : State}
    (runs : entry.run limit state = .ok tree after) : tree.Every node := by
  have met := Entry.meets settled (throw (.tooDeep limit)) limit entry state reached.allowIn trivial
  rw [runs] at met
  generalize entry.watched _ limit state = other at met
  cases met with
  | ok every _ => exact every

end

end Grammar

open Grammar

/-- In every tree of a script or of another parse of a reader, `in` stands in the head of a loop
only inside of brackets or between the signs of a conditional. A statement begins nowhere while
`in` is no operator: whatever would be read there instead, nothing changes. -/
theorem in_belongs_to_loop (limit : Nat) :
    (∀ (code : String) (script : Program), Program.parse code limit = .ok script →
        everyStmt Node.HeadsClosed script.body) ∧
      ∀ (base : Nat) (text : List Char) (state : State), Reached base text state →
        ∀ entry : Entry,
          (∀ (tree : Tree) (after : State), entry.run limit state = .ok tree after →
            tree.Every Node.HeadsClosed) ∧
          ∀ other : Parse Stmt, entry.watched other limit state = entry.run limit state := by
  have settled {part : Node} (heads : part.HeadsClosed) (_ : part.IfsClosed) : part.HeadsClosed :=
    heads
  refine ⟨fun code script read => ?_, fun base text state reached entry => ⟨?_, fun other => ?_⟩⟩
  · obtain ⟨state, after, starts, runs⟩ := Program.run_of_parse read
    exact (Reached.start starts).attached settled runs
  · exact fun tree after runs => reached.attached settled runs
  · exact (Entry.meets settled other limit entry state reached.allowIn trivial).eq.symm

/-- A header with a loop, a conditional and brackets in it, each of which has an `in` of its own. -/
def crowdedHeader : String :=
  "for (var a = function () \x7b for (b in c) d in e \x7d, f = g ? h in i : [j in k] in l) m in n"

/-- The loop takes the only `in` that is left. -/
theorem crowdedHeader_closed :
    ∃ script, Program.parse crowdedHeader 12 = .ok script ∧
      script.display = "(for-in (var (= a (function () \x7b(for-in b c (in d e))\x7d)) " ++
        "(= f (? g (in h i) [(in j k)]))) l (in m n))" ∧
      everyStmt Node.HeadsClosed script.body ∧
      ∃ state after, Reached 0 crowdedHeader.toList state ∧
        Tree.Every Node.HeadsClosed (.stmts script.body) ∧
        ∀ other, Entry.program.watched other 12 state = .ok (.stmts script.body) after := by
  have shown : (Program.parse crowdedHeader 12).toOption.map Program.display =
      some ("(for-in (var (= a (function () \x7b(for-in b c (in d e))\x7d)) " ++
        "(= f (? g (in h i) [(in j k)]))) l (in m n))") := by
    decide +kernel
  cases read : Program.parse crowdedHeader 12 with
  | error error =>
    rw [read] at shown
    cases shown
  | ok script =>
    rw [read] at shown
    obtain ⟨state, after, starts, runs⟩ := Program.run_of_parse read
    have reader := (in_belongs_to_loop 12).2 _ _ state (.start starts) .program
    exact ⟨script, rfl, Option.some.inj shown, (in_belongs_to_loop 12).1 _ _ read, state, after,
      .start starts, reader.1 _ _ runs, fun other => (reader.2 other).trans runs⟩

/-- In every tree of a script or of another parse of a reader, the first branch of a condition with
`else` does not end in a condition without it. -/
theorem else_belongs_to_nearest_if (limit : Nat) :
    (∀ (code : String) (script : Program), Program.parse code limit = .ok script →
        everyStmt Node.IfsClosed script.body) ∧
      ∀ (base : Nat) (text : List Char) (state : State), Reached base text state →
        ∀ (entry : Entry) (tree : Tree) (after : State), entry.run limit state = .ok tree after →
          tree.Every Node.IfsClosed := by
  have settled {part : Node} (_ : part.HeadsClosed) (ifs : part.IfsClosed) : part.IfsClosed := ifs
  refine ⟨fun code script read => ?_, fun base text state reached entry tree after runs => ?_⟩
  · obtain ⟨state, after, starts, runs⟩ := Program.run_of_parse read
    exact (Reached.start starts).attached settled runs
  · exact reached.attached settled runs

/-- A condition with `else` behind a tower of statements that end with another one. -/
def towerOfStatements : String :=
  "if (a) x: for (b of c) with (d) if (e) f; else g; else h"

/-- The first `else` belongs to the condition inside of the tower. -/
theorem towerOfStatements_closed :
    ∃ script, Program.parse towerOfStatements 12 = .ok script ∧
      script.display = "(if a (label x (for-of b c (with d (if e f g)))) h)" ∧
      everyStmt Node.IfsClosed script.body ∧
      ∃ state after, Reached 0 towerOfStatements.toList state ∧
        Entry.program.run 12 state = .ok (.stmts script.body) after ∧
        Tree.Every Node.IfsClosed (.stmts script.body) := by
  have shown : (Program.parse towerOfStatements 12).toOption.map Program.display =
      some "(if a (label x (for-of b c (with d (if e f g)))) h)" := by
    decide +kernel
  cases read : Program.parse towerOfStatements 12 with
  | error error =>
    rw [read] at shown
    cases shown
  | ok script =>
    rw [read] at shown
    obtain ⟨state, after, starts, runs⟩ := Program.run_of_parse read
    have reader := (else_belongs_to_nearest_if 12).2 _ _ state (.start starts) .program
    exact ⟨script, rfl, Option.some.inj shown, (else_belongs_to_nearest_if 12).1 _ _ read, state,
      after, .start starts, runs, reader _ _ runs⟩

end Scriptlet
