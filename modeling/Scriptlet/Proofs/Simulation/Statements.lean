import Scriptlet.Grammar.Nesting
import Scriptlet.Proofs.Simulation.Expressions

/-!
# Statements side by side

Each function of the grammar for statements reads the same well-formed tree from related
tokens, and so does every level of the grammar.
-/

namespace Scriptlet
namespace Grammar
namespace Simulation

variable {sim : Simulation} {pre : Token → Prop} {inner inner' : Inner}

theorem runs_semicolon : sim.RunsAt pre (Agreed fun _ => True) semicolon semicolon := by
  refine (runs_eat _).with fun found _ => ?_
  split
  · exact runs_pure ⟨rfl, trivial⟩
  · refine runs_peek fun a b token _ => ?_
    rw [← sim.kind token, ← sim.newlineBefore token]
    split
    · exact runs_pure ⟨rfl, trivial⟩
    · exact runs_unexpected rfl

theorem runs_condition (inners : sim.Inners inner inner') :
    sim.RunsAt pre (Agreed Expr.WellFormed) (condition inner) (condition inner') := by
  refine (runs_expect _).andThen ?_
  refine (runs_withAllowIn true (runs_sequence inners)).with fun _ holds => ?_
  exact (runs_expect _).andThen (runs_pure ⟨rfl, holds⟩)

/-! ## Variables and jumps -/

theorem runs_initializer (inners : sim.Inners inner inner') :
    sim.RunsAt pre (Agreed (everyOptionalExpr Node.WellFormed)) (initializer inner)
      (initializer inner') := by
  refine (runs_eat _).with fun found _ => ?_
  split
  · exact (inners.expr 0).with fun _ holds => runs_pure ⟨rfl, holds⟩
  · exact runs_pure ⟨rfl, trivial⟩

theorem runs_declaration (inners : sim.Inners inner inner') :
    sim.RunsAt pre (Agreed (Declaration.Every Node.WellFormed)) (declaration inner)
      (declaration inner') :=
  runs_expectIdentifier.with fun _ _ =>
    (runs_initializer inners).with fun _ holds => runs_pure ⟨rfl, holds⟩

/-- Variables come one or more at a time. -/
theorem runs_declarations (inners : sim.Inners inner inner') :
    sim.RunsAt pre (Agreed fun items => items ≠ [] ∧ everyDeclaration Node.WellFormed items)
      (declarations inner) (declarations inner') := by
  refine runs_advance.andThen ((runs_separated (runs_declaration inners)).weaken ?_)
  rintro items _ ⟨rfl, some, each⟩
  exact ⟨rfl, some, (everyDeclaration_iff _).mpr each⟩

theorem runs_jumpLabel : sim.RunsAt pre (Agreed fun _ => True) jumpLabel jumpLabel := by
  refine runs_peek fun a b token _ => ?_
  rw [← sim.kind token, ← sim.lexeme token, ← sim.newlineBefore token]
  split
  · exact runs_advance.andThen (runs_semicolon.andThen (runs_pure ⟨rfl, trivial⟩))
  · exact runs_semicolon.andThen (runs_pure ⟨rfl, trivial⟩)

theorem runs_jumpValue (inners : sim.Inners inner inner') :
    sim.RunsAt pre (Agreed (everyOptionalExpr Node.WellFormed)) (jumpValue inner)
      (jumpValue inner') := by
  refine runs_peek fun a b token _ => ?_
  rw [← sim.kind token, ← sim.newlineBefore token]
  split
  · exact (runs_sequence inners).with fun _ holds =>
      runs_semicolon.andThen (runs_pure ⟨rfl, holds⟩)
  · exact runs_semicolon.andThen (runs_pure ⟨rfl, trivial⟩)

/-! ## Branches -/

theorem runs_alternate (inners : sim.Inners inner inner') :
    sim.RunsAt pre (Agreed (everyOptionalStmt Node.WellFormed)) (alternate inner)
      (alternate inner') := by
  refine (runs_eat _).with fun found _ => ?_
  split
  · exact inners.stmt.with fun _ holds => runs_pure ⟨rfl, holds⟩
  · exact runs_pure ⟨rfl, trivial⟩

theorem runs_ifStmt (inners : sim.Inners inner inner') :
    sim.RunsAt pre (Agreed Stmt.WellFormed) (ifStmt inner) (ifStmt inner') := by
  refine runs_advance.andThen ((runs_condition inners).with fun _ test => ?_)
  refine inners.stmt.with fun _ consequent => (runs_alternate inners).with fun _ alternate => ?_
  exact runs_pure ⟨rfl, trivial, test, consequent, alternate⟩

theorem runs_switchClause (inners : sim.Inners inner inner') {test : Option Expr}
    (known : everyOptionalExpr Node.WellFormed test) :
    sim.RunsAt pre (Agreed (SwitchCase.Every Node.WellFormed)) (switchClause inner test)
      (switchClause inner' test) :=
  (runs_expect _).andThen ((runs_stmtList inners).with fun _ body => runs_pure ⟨rfl, known, body⟩)

theorem runs_switchStep (inners : sim.Inners inner inner') {cases : List SwitchCase}
    (kept : ∀ clause ∈ cases, clause.Every Node.WellFormed) :
    sim.RunsAt pre (Agreed fun found => (∀ clause ∈ found.value, clause.Every Node.WellFormed) ∧
        ∀ clause ∈ found.value, clause.Every Node.WellFormed)
      (switchStep inner cases) (switchStep inner' cases) := by
  have more {test : Option Expr} (known : everyOptionalExpr Node.WellFormed test) :
      sim.Runs (Agreed fun found => (∀ clause ∈ found.value, clause.Every Node.WellFormed) ∧
          ∀ clause ∈ found.value, clause.Every Node.WellFormed)
        (do return Step.again ((← switchClause inner test) :: cases))
        (do return Step.again ((← switchClause inner' test) :: cases)) := by
    refine (runs_switchClause inners known).with fun clause holds => ?_
    have all := List.forall_mem_cons.mpr ⟨holds, kept⟩
    exact runs_pure ⟨rfl, all, all⟩
  refine runs_peekKind fun kind => ?_
  split
  · exact runs_advance.andThen (runs_pure ⟨rfl, kept, kept⟩)
  · exact runs_advance.andThen ((runs_sequence inners).with fun _ test => more test)
  · exact runs_advance.andThen (more trivial)
  · exact runs_unexpected rfl

theorem runs_switchStmt (inners : sim.Inners inner inner') :
    sim.RunsAt pre (Agreed Stmt.WellFormed) (switchStmt inner) (switchStmt inner') := by
  refine runs_advance.andThen ((runs_condition inners).with fun _ discriminant => ?_)
  refine (runs_expect _).andThen ?_
  refine (runs_loop (∀ clause ∈ ·, SwitchCase.Every Node.WellFormed clause)
    (∀ clause ∈ ·, SwitchCase.Every Node.WellFormed clause)
    (fun _ kept => runs_switchStep inners kept) (List.forall_mem_nil _)).with fun cases each => ?_
  refine runs_pure ⟨rfl, trivial, discriminant, (everyCase_iff _).mpr ?_⟩
  simpa using each

/-! ## Loops -/

/-- The head of a loop declares at least one variable, if it declares any. -/
theorem runs_forHead (inners : sim.Inners inner inner') :
    sim.RunsAt pre (Agreed fun head => (∀ found ∈ head, ForHead.Declares found) ∧
        everyOptionalHead Node.WellFormed head)
      (forHead inner) (forHead inner') := by
  refine runs_peekKind fun kind => ?_
  split
  · exact runs_pure ⟨rfl, nofun, trivial⟩
  · split
    · refine (runs_withAllowIn false (runs_declarations inners)).with fun items holds => ?_
      refine runs_pure ⟨rfl, ?_, holds.2⟩
      rintro _ ⟨⟩
      exact holds.1
    · refine (runs_withAllowIn false (runs_sequence inners)).with fun expr holds => ?_
      refine runs_pure ⟨rfl, ?_, holds⟩
      rintro _ ⟨⟩
      trivial

theorem runs_forPart (inners : sim.Inners inner inner') (close : Symbol) :
    sim.RunsAt pre (Agreed (everyOptionalExpr Node.WellFormed)) (forPart inner close)
      (forPart inner' close) := by
  refine runs_peekKind fun kind => ?_
  split
  · exact runs_pure ⟨rfl, trivial⟩
  · exact (runs_sequence inners).with fun _ holds => runs_pure ⟨rfl, holds⟩

theorem runs_forRest (inners : sim.Inners inner inner') {init : Option ForHead}
    (declares : ∀ head ∈ init, ForHead.Declares head)
    (known : everyOptionalHead Node.WellFormed init) :
    sim.RunsAt pre (Agreed Stmt.WellFormed) (forRest inner init) (forRest inner' init) := by
  refine (runs_expect _).andThen ((runs_forPart inners _).with fun test first => ?_)
  refine (runs_expect _).andThen ((runs_forPart inners _).with fun update second => ?_)
  refine (runs_expect _).andThen (inners.stmt.with fun body third => ?_)
  refine runs_pure ⟨rfl, ?_, known, first, second, third⟩
  cases init with
  | none => trivial
  | some head => exact declares head rfl

theorem runs_forInRest (inners : sim.Inners inner inner') {head : ForHead}
    (declares : head.Declares) (target : ForHead.isTarget head = true)
    (known : head.Every Node.WellFormed) :
    sim.RunsAt pre (Agreed Stmt.WellFormed) (forInRest inner head) (forInRest inner' head) := by
  refine runs_advance.andThen ((runs_sequence inners).with fun object first => ?_)
  refine (runs_expect _).andThen (inners.stmt.with fun body second => ?_)
  exact runs_pure ⟨rfl, ⟨declares, target⟩, known, first, second⟩

theorem runs_forOfRest (inners : sim.Inners inner inner') (isAwait : Bool) {head : ForHead}
    (declares : head.Declares) (target : ForHead.isTarget head = true)
    (known : head.Every Node.WellFormed) :
    sim.RunsAt pre (Agreed Stmt.WellFormed) (forOfRest inner isAwait head)
      (forOfRest inner' isAwait head) := by
  refine runs_advance.andThen ((inners.expr 0).with fun iterable first => ?_)
  refine (runs_expect _).andThen (inners.stmt.with fun body second => ?_)
  exact runs_pure ⟨rfl, ⟨declares, target⟩, known, first, second⟩

/-- A loop over keys or values has a head that can be assigned to: the others stop before
the body. -/
theorem runs_forAfterHead (inners : sim.Inners inner inner') (isAwait : Bool) {head : ForHead}
    (declares : head.Declares) (known : head.Every Node.WellFormed) :
    sim.RunsAt pre (Agreed Stmt.WellFormed) (forAfterHead inner isAwait head)
      (forAfterHead inner' isAwait head) := by
  refine runs_peekKind fun kind => runs_atWord _ fun overValues => ?_
  split
  · exact runs_unexpected rfl
  next allowed =>
    -- Past the check, a loop over keys or values has a target.
    have target : (kind = .keyword .in_ ∨ overValues = true) → ForHead.isTarget head = true := by
      intro loops
      rcases loops with loops | loops <;> simpa [loops] using allowed
    split
    next loops =>
      simp only [Bool.and_eq_true, decide_eq_true_eq] at loops
      exact runs_forInRest inners declares (target (.inl loops.1)) known
    split
    next loops => exact runs_forOfRest inners isAwait declares (target (.inr loops)) known
    split
    · exact runs_unexpected rfl
    · refine runs_forRest inners ?_ known
      rintro _ ⟨⟩
      exact declares

theorem runs_forStmt (inners : sim.Inners inner inner') :
    sim.RunsAt pre (Agreed Stmt.WellFormed) (forStmt inner) (forStmt inner') := by
  refine runs_advance.andThen ((runs_eat _).with fun isAwait _ => (runs_expect _).andThen ?_)
  refine (runs_forHead inners).with fun head holds => ?_
  cases head with
  | some head => exact runs_forAfterHead inners isAwait (holds.1 head rfl) holds.2
  | none =>
    dsimp only
    split
    · exact runs_unexpected rfl
    · exact runs_forRest inners nofun trivial

theorem runs_doWhileStmt (inners : sim.Inners inner inner') :
    sim.RunsAt pre (Agreed Stmt.WellFormed) (doWhileStmt inner) (doWhileStmt inner') := by
  refine runs_advance.andThen (inners.stmt.with fun body first => (runs_expect _).andThen ?_)
  refine (runs_condition inners).with fun test second => ?_
  exact (runs_eat _).andThen (runs_pure ⟨rfl, trivial, first, second⟩)

theorem runs_whileStmt (inners : sim.Inners inner inner') :
    sim.RunsAt pre (Agreed Stmt.WellFormed) (whileStmt inner) (whileStmt inner') := by
  refine runs_advance.andThen ((runs_condition inners).with fun test first => ?_)
  exact inners.stmt.with fun body second => runs_pure ⟨rfl, trivial, first, second⟩

/-! ## Exceptions -/

theorem runs_catchParam : sim.RunsAt pre (Agreed fun _ => True) catchParam catchParam := by
  refine (runs_eat _).with fun found _ => ?_
  split
  · exact runs_expectIdentifier.with fun name _ =>
      (runs_expect _).andThen (runs_pure ⟨rfl, trivial⟩)
  · exact runs_pure ⟨rfl, trivial⟩

theorem runs_handler (inners : sim.Inners inner inner') :
    sim.RunsAt pre (Agreed (everyHandler Node.WellFormed)) (handler inner) (handler inner') := by
  refine (runs_eat _).with fun found _ => ?_
  split
  · exact runs_catchParam.with fun param _ =>
      (runs_block inners).with fun body holds => runs_pure ⟨rfl, holds⟩
  · exact runs_pure ⟨rfl, trivial⟩

theorem runs_finalizer (inners : sim.Inners inner inner') :
    sim.RunsAt pre (Agreed (everyOptionalBody Node.WellFormed)) (finalizer inner)
      (finalizer inner') := by
  refine (runs_eat _).with fun found _ => ?_
  split
  · exact (runs_block inners).with fun body holds => runs_pure ⟨rfl, holds⟩
  · exact runs_pure ⟨rfl, trivial⟩

theorem runs_tryStmt (inners : sim.Inners inner inner') :
    sim.RunsAt pre (Agreed Stmt.WellFormed) (tryStmt inner) (tryStmt inner') := by
  refine runs_advance.andThen ((runs_block inners).with fun body first => ?_)
  refine (runs_handler inners).with fun onError second => ?_
  refine (runs_finalizer inners).with fun always third => ?_
  split
  · exact runs_unexpected rfl
  next some =>
    have either : onError.isSome = true ∨ always.isSome = true := by
      cases onError <;> cases always <;> simp_all
    exact runs_pure ⟨rfl, either, first, second, third⟩

/-! ## Modules -/

theorem runs_importName : sim.RunsAt pre (Agreed fun _ => True) importName importName := by
  refine runs_memberName.with fun name _ => runs_atWord _ fun renamed => ?_
  split
  · exact runs_advance.andThen runs_expectIdentifier
  · exact runs_pure ⟨rfl, trivial⟩

theorem runs_importNames : sim.RunsAt pre (Agreed fun _ => True) importNames importNames := by
  refine runs_peekKind fun kind => ?_
  split
  · exact runs_advance.andThen ((runs_expectWord _).andThen
      (runs_expectIdentifier.with fun name _ => runs_pure ⟨rfl, trivial⟩))
  · exact runs_advance.andThen ((runs_closedList _ runs_importName).weaken
      fun _ _ same => ⟨same.1, trivial⟩)
  · exact runs_pure ⟨rfl, trivial⟩

theorem runs_importDefault :
    sim.RunsAt pre (Agreed fun _ => True) importDefault importDefault := by
  refine runs_peekKind fun kind => ?_
  split
  · exact runs_expectIdentifier.with fun name _ =>
      (runs_eat _).andThen (runs_pure ⟨rfl, trivial⟩)
  · exact runs_pure ⟨rfl, trivial⟩

theorem runs_importBindings :
    sim.RunsAt pre (Agreed fun _ => True) importBindings importBindings := by
  refine runs_peekKind fun kind => ?_
  split
  · exact runs_pure ⟨rfl, trivial⟩
  · exact runs_importDefault.with fun first _ => runs_importNames.with fun names _ =>
      (runs_expectWord _).andThen (runs_pure ⟨rfl, trivial⟩)

theorem runs_importStmt : sim.RunsAt pre (Agreed Stmt.WellFormed) importStmt importStmt := by
  refine runs_advance.andThen (runs_importBindings.with fun bindings _ => ?_)
  refine (runs_expect _).bind fun a b token => ?_
  rw [← sim.lexeme token]
  exact runs_semicolon.andThen (runs_pure ⟨rfl, trivial⟩)

theorem runs_exportStmt (inners : sim.Inners inner inner') :
    sim.RunsAt pre (Agreed Stmt.WellFormed) (exportStmt inner) (exportStmt inner') :=
  runs_advance.andThen ((runs_eat _).with fun _ _ =>
    inners.stmt.with fun _ holds => runs_pure ⟨rfl, trivial, holds⟩)

/-! ## All statements -/

theorem runs_variablesStmt (inners : sim.Inners inner inner') (kind : DeclarationKind) :
    sim.RunsAt pre (Agreed Stmt.WellFormed) (variablesStmt inner kind)
      (variablesStmt inner' kind) :=
  (runs_declarations inners).with fun _ holds =>
    runs_semicolon.andThen (runs_pure ⟨rfl, holds.1, holds.2⟩)

theorem runs_exprStmt (inners : sim.Inners inner inner') :
    sim.RunsAt pre (Agreed Stmt.WellFormed) (exprStmt inner) (exprStmt inner') := by
  refine (runs_sequence inners).with fun expr holds => runs_peekKind fun kind => ?_
  split
  · exact runs_advance.andThen (inners.stmt.with fun stmt body =>
      runs_pure ⟨rfl, trivial, body⟩)
  · exact runs_semicolon.andThen (runs_pure ⟨rfl, trivial, holds⟩)

theorem runs_withStmt (inners : sim.Inners inner inner') :
    sim.RunsAt pre (Agreed Stmt.WellFormed) (withStmt inner) (withStmt inner') := by
  refine runs_advance.andThen ((runs_condition inners).with fun object first => ?_)
  exact inners.stmt.with fun body second => runs_pure ⟨rfl, trivial, first, second⟩

theorem runs_throwStmt (inners : sim.Inners inner inner') :
    sim.RunsAt pre (Agreed Stmt.WellFormed) (throwStmt inner) (throwStmt inner') :=
  runs_advance.andThen ((runs_sequence inners).with fun _ holds =>
    runs_semicolon.andThen (runs_pure ⟨rfl, trivial, holds⟩))

/-- Every statement that the grammar reads is well-formed. -/
theorem runs_stmtBody (inners : sim.Inners inner inner') :
    sim.RunsAt pre (Agreed Stmt.WellFormed) (stmtBody inner) (stmtBody inner') := by
  refine runs_peekKind fun kind => ?_
  split
  · exact (runs_block inners).with fun body holds => runs_pure ⟨rfl, trivial, holds⟩
  · exact runs_variablesStmt inners _
  · exact runs_variablesStmt inners _
  · exact runs_variablesStmt inners _
  · exact runs_importStmt
  · exact runs_exportStmt inners
  · exact runs_advance.andThen (runs_pure ⟨rfl, trivial⟩)
  · exact (runs_function inners true).with fun definition holds =>
      runs_pure ⟨rfl, holds.1 rfl, holds.2⟩
  · exact runs_ifStmt inners
  · exact runs_doWhileStmt inners
  · exact runs_whileStmt inners
  · exact runs_forStmt inners
  · exact runs_advance.andThen (runs_jumpLabel.with fun label _ => runs_pure ⟨rfl, trivial⟩)
  · exact runs_advance.andThen (runs_jumpLabel.with fun label _ => runs_pure ⟨rfl, trivial⟩)
  · exact runs_advance.andThen ((runs_jumpValue inners).with fun value holds =>
      runs_pure ⟨rfl, trivial, holds⟩)
  · exact runs_advance.andThen ((runs_jumpValue inners).with fun value holds =>
      runs_pure ⟨rfl, trivial, holds⟩)
  · exact runs_withStmt inners
  · exact runs_switchStmt inners
  · exact runs_throwStmt inners
  · exact runs_tryStmt inners
  · exact runs_advance.andThen (runs_semicolon.andThen (runs_pure ⟨rfl, trivial⟩))
  · exact runs_exprStmt inners

/-! ## Levels -/

variable {template template' : Token → Except Error Expr}

/-- Every level of the grammar reads well-formed trees, if templates have them. -/
theorem inners_levels {limit : Nat}
    (deep : sim.error (.tooDeep limit) (.tooDeep limit))
    (templates : ∀ {a b}, sim.token a b → a.kind = .template →
      Sides (Agreed Expr.WellFormed) sim.error (template a) (template' b)) (room : Nat) :
    sim.Inners (levels limit template room) (levels limit template' room) := by
  induction room with
  | zero => exact ⟨fun _ => runs_tooDeep deep, runs_tooDeep deep, runs_tooDeep deep, templates⟩
  | succ room ih =>
    exact ⟨fun least => runs_nested (runs_exprBody ih least), runs_nested (runs_stmtBody ih),
      runs_nested (runs_newBody ih), templates⟩

theorem runs_program (inners : sim.Inners inner inner') :
    sim.RunsAt pre (Agreed fun script => everyStmt Node.WellFormed script.body) (program inner)
      (program inner') :=
  (runs_stmtList inners).with fun _ holds => (runs_expect _).andThen (runs_pure ⟨rfl, holds⟩)

theorem runs_wholeSequence (inners : sim.Inners inner inner') :
    sim.RunsAt pre (Agreed Expr.WellFormed) (wholeSequence inner) (wholeSequence inner') :=
  (runs_sequence inners).with fun _ holds => (runs_expect _).andThen (runs_pure ⟨rfl, holds⟩)

end Simulation
end Grammar
end Scriptlet
