import Scriptlet.Grammar.Nesting
import Scriptlet.Proofs.Course.Expressions
import Scriptlet.Proofs.Simulation.Texts

/-!
# The course of statements

Each function of the grammar for statements takes the same course with two levels further in
that do so, and so does every parse that a reader can start. Most of what a statement consists
of is read after its first token.
-/

namespace Scriptlet
namespace Grammar

variable {terms : Terms} {pre : Token → Prop} {late : Bool} {inner inner' : Inner}

namespace Terms

theorem follows_semicolon :
    terms.FollowsAt pre late (fun _ => false) (fun _ => True) semicolon semicolon := by
  refine follows_ifEat nofun (follows_pure trivial) (follows_peek fun token _ _ => ?_)
  split
  · exact follows_pure trivial
  · exact follows_unexpected

theorem follows_condition {took : Expr → Bool} (inners : terms.Inners inner inner') :
    terms.FollowsAt pre late took (Expr.Every terms.node) (condition inner) (condition inner') := by
  refine follows_expecting nofun fun _ _ => ?_
  refine (follows_withAllowIn true (follows_sequence inners (.inl rfl))).taking fun _ holds => ?_
  exact follows_expecting nofun fun _ _ => follows_pure holds

/-! ## Variables and jumps -/

theorem follows_initializer (inners : terms.Inners inner inner') :
    terms.FollowsAt pre late (fun _ => false) (everyOptionalExpr terms.node) (initializer inner)
      (initializer inner') :=
  follows_ifEat nofun ((inners.expr 0 (.inl rfl)).taking fun _ holds => follows_pure holds)
    (follows_pure trivial)

theorem follows_declaration {took : Declaration → Bool} (inners : terms.Inners inner inner') :
    terms.FollowsAt pre late took (Declaration.Every terms.node) (declaration inner)
      (declaration inner') :=
  follows_expectIdentifier.taking fun _ _ =>
    (follows_initializer inners).passing fun _ holds => follows_pure holds

theorem follows_declarations {took : List Declaration → Bool}
    (inners : terms.Inners inner inner') (real : Real pre) :
    terms.FollowsAt pre late took (everyDeclaration terms.node) (declarations inner)
      (declarations inner') := by
  refine follows_advancing real fun _ _ => ?_
  exact (follows_separated (follows_declaration inners)).weaken (fun _ => Nat.le_refl _)
    fun _ holds => (everyDeclaration_iff _).mpr holds

theorem follows_jumpLabel :
    terms.FollowsAt pre late (fun _ => false) (fun _ => True) jumpLabel jumpLabel := by
  refine follows_peek fun token _ _ => ?_
  split
  · next is =>
    simp only [Bool.and_eq_true, decide_eq_true_eq] at is
    refine follows_advancing (.of_eq is.1 nofun) fun _ _ => ?_
    exact follows_semicolon.passing fun _ _ => follows_pure trivial
  · exact follows_semicolon.passing fun _ _ => follows_pure trivial

theorem follows_jumpValue (inners : terms.Inners inner inner') :
    terms.FollowsAt pre true (fun _ => false) (everyOptionalExpr terms.node) (jumpValue inner)
      (jumpValue inner') := by
  refine follows_peek fun token _ _ => ?_
  split
  · exact (follows_sequence inners (.inl rfl)).taking fun _ holds =>
      follows_semicolon.passing fun _ _ => follows_pure holds
  · exact follows_semicolon.passing fun _ _ => follows_pure trivial

/-! ## Branches -/

theorem follows_alternate (inners : terms.Inners inner inner') :
    terms.FollowsAt pre late (fun _ => false) (everyOptionalStmt terms.node) (alternate inner)
      (alternate inner') :=
  follows_ifEat nofun ((inners.stmt (.inl rfl)).taking fun _ holds => follows_pure holds)
    (follows_pure trivial)

theorem follows_ifStmt {took : Stmt → Bool} (inners : terms.Inners inner inner')
    (real : Real pre) :
    terms.FollowsAt pre late took (Stmt.Every terms.node) (ifStmt inner) (ifStmt inner') := by
  refine follows_advancing real fun _ _ => (follows_condition inners).taking fun _ test => ?_
  refine (inners.stmt (.inl rfl)).taking fun _ consequent => ?_
  exact (follows_alternate inners).passing fun _ alternate =>
    follows_pure ⟨terms.stmt _, test, consequent, alternate⟩

theorem follows_switchClause {took : SwitchCase → Bool} (inners : terms.Inners inner inner')
    {test : Option Expr} (known : everyOptionalExpr terms.node test) :
    terms.FollowsAt pre late took (SwitchCase.Every terms.node) (switchClause inner test)
      (switchClause inner' test) :=
  follows_expecting nofun fun _ _ =>
    (follows_stmtList inners (.inl rfl)).passing fun _ body => follows_pure ⟨known, body⟩

theorem follows_switchStep (inners : terms.Inners inner inner') {cases : List SwitchCase}
    (kept : ∀ clause ∈ cases, SwitchCase.Every terms.node clause) :
    terms.FollowsAt pre late Step.goesOn
      (fun found => ∀ clause ∈ found.value, SwitchCase.Every terms.node clause)
      (switchStep inner cases) (switchStep inner' cases) := by
  -- A clause with a test and one without it go on in the same way.
  have more {test : Option Expr} (known : everyOptionalExpr terms.node test) :
      terms.Follows true (fun _ => false)
        (fun found => ∀ clause ∈ found.value, SwitchCase.Every terms.node clause)
        (do return Step.again ((← switchClause inner test) :: cases))
        (do return Step.again ((← switchClause inner' test) :: cases)) :=
    (follows_switchClause inners known).taking fun clause holds =>
      follows_pure (List.forall_mem_cons.mpr ⟨holds, kept⟩)
  refine follows_peekKind fun kind => ?_
  split
  · exact follows_advancing (.of_kind nofun) fun _ _ => follows_pure kept
  · exact follows_advancing (.of_kind nofun) fun _ _ =>
      (follows_sequence inners (.inl rfl)).taking fun _ test => more test
  · exact follows_advancing (.of_kind nofun) fun _ _ => more trivial
  · exact follows_unexpected

theorem follows_switchStmt {took : Stmt → Bool} (inners : terms.Inners inner inner')
    (real : Real pre) :
    terms.FollowsAt pre late took (Stmt.Every terms.node) (switchStmt inner)
      (switchStmt inner') := by
  have looped : terms.Follows true (fun _ => false)
      (fun cases => ∀ clause ∈ cases, SwitchCase.Every terms.node clause)
      (loop (switchStep inner) []) (loop (switchStep inner') []) := by
    refine follows_loop (fun cases kept => ?_) (List.forall_mem_nil _)
    simpa using follows_switchStep inners kept
  refine follows_advancing real fun _ _ => ?_
  refine (follows_condition inners).taking fun _ discriminant => ?_
  refine follows_expecting nofun fun _ _ => looped.passing fun cases each => ?_
  refine follows_pure ⟨terms.stmt _, discriminant, (everyCase_iff _).mpr ?_⟩
  simpa using each

/-! ## Loops -/

theorem declarationKind?_ne_eof {kind : Kind} {modifier : DeclarationKind}
    (is : declarationKind? kind = some modifier) : kind ≠ .eof := by
  rintro rfl
  cases is

theorem follows_forHead (inners : terms.Inners inner inner') :
    terms.FollowsAt pre true (fun _ => false) (everyOptionalHead terms.node) (forHead inner)
      (forHead inner') := by
  refine follows_peekKind fun kind => ?_
  split
  · exact follows_pure trivial
  · split
    · next modifier is =>
      have real : Real fun token => token.kind = kind ∧ pre token :=
        .of_kind (declarationKind?_ne_eof is)
      exact (follows_withAllowIn false (follows_declarations inners real)).taking
        fun _ holds => follows_pure holds
    · exact (follows_withAllowIn false (follows_sequence inners (.inl rfl))).taking
        fun _ holds => follows_pure holds

theorem follows_forPart (inners : terms.Inners inner inner') (close : Symbol) :
    terms.FollowsAt pre true (fun _ => false) (everyOptionalExpr terms.node) (forPart inner close)
      (forPart inner' close) := by
  refine follows_peekKind fun kind => ?_
  split
  · exact follows_pure trivial
  · exact (follows_sequence inners (.inl rfl)).taking fun _ holds => follows_pure holds

theorem follows_forRest {took : Stmt → Bool} (inners : terms.Inners inner inner')
    {init : Option ForHead} (known : everyOptionalHead terms.node init) :
    terms.FollowsAt pre late took (Stmt.Every terms.node) (forRest inner init)
      (forRest inner' init) := by
  refine follows_expecting nofun fun _ _ => (follows_forPart inners _).passing fun _ test => ?_
  refine follows_expecting nofun fun _ _ => (follows_forPart inners _).passing fun _ update => ?_
  refine follows_expecting nofun fun _ _ => (inners.stmt (.inl rfl)).taking fun _ body => ?_
  exact follows_pure ⟨terms.stmt _, known, test, update, body⟩

theorem follows_forInRest {took : Stmt → Bool} (inners : terms.Inners inner inner')
    {head : ForHead} (known : head.Every terms.node) (real : Real pre) :
    terms.FollowsAt pre late took (Stmt.Every terms.node) (forInRest inner head)
      (forInRest inner' head) := by
  refine follows_advancing real fun _ _ => ?_
  refine (follows_sequence inners (.inl rfl)).taking fun _ object => ?_
  refine follows_expecting nofun fun _ _ => (inners.stmt (.inl rfl)).taking fun _ body => ?_
  exact follows_pure ⟨terms.stmt _, known, object, body⟩

theorem follows_forOfRest {took : Stmt → Bool} (inners : terms.Inners inner inner')
    (isAwait : Bool) {head : ForHead} (known : head.Every terms.node) (real : Real pre) :
    terms.FollowsAt pre late took (Stmt.Every terms.node) (forOfRest inner isAwait head)
      (forOfRest inner' isAwait head) := by
  refine follows_advancing real fun _ _ => ?_
  refine (inners.expr 0 (.inl rfl)).taking fun _ iterable => ?_
  refine follows_expecting nofun fun _ _ => (inners.stmt (.inl rfl)).taking fun _ body => ?_
  exact follows_pure ⟨terms.stmt _, known, iterable, body⟩

theorem follows_forAfterHead {took : Stmt → Bool} (inners : terms.Inners inner inner')
    (isAwait : Bool) {head : ForHead} (known : head.Every terms.node) :
    terms.FollowsAt pre late took (Stmt.Every terms.node) (forAfterHead inner isAwait head)
      (forAfterHead inner' isAwait head) := by
  refine follows_peekKind fun kind => follows_atWord _ fun overValues => ?_
  split
  · exact follows_unexpected
  split
  next loops =>
    simp only [Bool.and_eq_true, decide_eq_true_eq] at loops
    exact follows_forInRest inners known fun _ is => is.2.1 ▸ loops.1 ▸ nofun
  split
  next loops => exact follows_forOfRest inners isAwait known (.of_word loops)
  split
  · exact follows_unexpected
  · exact follows_forRest inners known

theorem follows_forStmt {took : Stmt → Bool} (inners : terms.Inners inner inner')
    (real : Real pre) :
    terms.FollowsAt pre late took (Stmt.Every terms.node) (forStmt inner) (forStmt inner') := by
  refine follows_advancing real fun _ _ => follows_eating nofun fun isAwait => ?_
  refine follows_expecting nofun fun _ _ => (follows_forHead inners).passing fun head holds => ?_
  cases head with
  | some head => exact follows_forAfterHead inners isAwait holds
  | none =>
    dsimp only
    split
    · exact follows_unexpected
    · exact follows_forRest inners trivial

theorem follows_doWhileStmt {took : Stmt → Bool} (inners : terms.Inners inner inner')
    (real : Real pre) :
    terms.FollowsAt pre late took (Stmt.Every terms.node) (doWhileStmt inner)
      (doWhileStmt inner') := by
  refine follows_advancing real fun _ _ => (inners.stmt (.inl rfl)).taking fun _ body => ?_
  refine follows_expecting nofun fun _ _ => (follows_condition inners).taking fun _ test => ?_
  exact follows_eating nofun fun _ => follows_value ⟨terms.stmt _, body, test⟩ (by simp)

theorem follows_whileStmt {took : Stmt → Bool} (inners : terms.Inners inner inner')
    (real : Real pre) :
    terms.FollowsAt pre late took (Stmt.Every terms.node) (whileStmt inner) (whileStmt inner') := by
  refine follows_advancing real fun _ _ => (follows_condition inners).taking fun _ test => ?_
  exact (inners.stmt (.inl rfl)).taking fun _ body => follows_pure ⟨terms.stmt _, test, body⟩

/-! ## Exceptions -/

theorem follows_catchParam :
    terms.FollowsAt pre late (fun _ => false) (fun _ => True) catchParam catchParam := by
  refine follows_ifEat nofun ?_ (follows_pure trivial)
  exact follows_expectIdentifier.taking fun _ _ =>
    follows_expecting nofun fun _ _ => follows_pure trivial

theorem follows_handler (inners : terms.Inners inner inner') :
    terms.FollowsAt pre late (fun _ => false) (everyHandler terms.node) (handler inner)
      (handler inner') := by
  refine follows_ifEat nofun ?_ (follows_pure trivial)
  exact follows_catchParam.passing fun _ _ =>
    (follows_block inners).taking fun _ holds => follows_pure holds

theorem follows_finalizer (inners : terms.Inners inner inner') :
    terms.FollowsAt pre late (fun _ => false) (everyOptionalBody terms.node) (finalizer inner)
      (finalizer inner') :=
  follows_ifEat nofun ((follows_block inners).taking fun _ holds => follows_pure holds)
    (follows_pure trivial)

theorem follows_tryStmt {took : Stmt → Bool} (inners : terms.Inners inner inner')
    (real : Real pre) :
    terms.FollowsAt pre late took (Stmt.Every terms.node) (tryStmt inner) (tryStmt inner') := by
  refine follows_advancing real fun _ _ => (follows_block inners).taking fun _ body => ?_
  refine (follows_handler inners).passing fun onError caught => ?_
  refine (follows_finalizer inners).passing fun always final => ?_
  split
  · exact follows_unexpected
  · exact follows_pure ⟨terms.stmt _, body, caught, final⟩

/-! ## Modules -/

theorem follows_importName {took : String → Bool} :
    terms.FollowsAt pre late took (fun _ => True) importName importName := by
  refine follows_memberName.taking fun name _ => follows_atWord _ fun renamed => ?_
  split
  · next is =>
    exact follows_advancing (.of_word is) fun _ _ => follows_expectIdentifier
  · exact follows_pure trivial

theorem follows_importNames :
    terms.FollowsAt pre late (fun _ => false) (fun _ => True) importNames importNames := by
  refine follows_peekKind fun kind => ?_
  split
  · refine follows_advancing (.of_kind nofun) fun _ _ => (follows_expectWord _).taking fun _ _ => ?_
    exact follows_expectIdentifier.taking fun _ _ => follows_pure trivial
  · refine follows_advancing (.of_kind nofun) fun _ _ => ?_
    exact (follows_closedList _ follows_importName).weaken (fun _ => Nat.le_refl _)
      fun _ _ => trivial
  · exact follows_pure trivial

theorem follows_importDefault :
    terms.FollowsAt pre late (fun _ => false) (fun _ => True) importDefault importDefault := by
  refine follows_peekKind fun kind => ?_
  split
  · exact follows_expectIdentifier.taking fun _ _ =>
      follows_eating nofun fun _ => follows_value trivial (by simp)
  · exact follows_pure trivial

theorem follows_importBindings :
    terms.FollowsAt pre late (fun _ => false) (fun _ => True) importBindings importBindings := by
  refine follows_peekKind fun kind => ?_
  split
  · exact follows_pure trivial
  · refine follows_importDefault.passing fun _ _ => follows_importNames.passing fun _ _ => ?_
    exact (follows_expectWord _).taking fun _ _ => follows_pure trivial

theorem follows_importStmt {took : Stmt → Bool} (real : Real pre) :
    terms.FollowsAt pre late took (Stmt.Every terms.node) importStmt importStmt := by
  refine follows_advancing real fun _ _ => follows_importBindings.passing fun _ _ => ?_
  refine follows_expecting nofun fun _ _ => follows_semicolon.passing fun _ _ => ?_
  exact follows_pure (terms.stmt _)

theorem follows_exportStmt {took : Stmt → Bool} (inners : terms.Inners inner inner')
    (real : Real pre) :
    terms.FollowsAt pre late took (Stmt.Every terms.node) (exportStmt inner)
      (exportStmt inner') := by
  refine follows_advancing real fun _ _ => follows_eating nofun fun _ => ?_
  refine (inners.stmt (.inl (by simp))).taking fun _ holds => ?_
  exact follows_pure ⟨terms.stmt _, holds⟩

/-! ## All statements -/

theorem follows_variablesStmt {took : Stmt → Bool} (inners : terms.Inners inner inner')
    (kind : DeclarationKind) (real : Real pre) :
    terms.FollowsAt pre late took (Stmt.Every terms.node) (variablesStmt inner kind)
      (variablesStmt inner' kind) :=
  (follows_declarations inners real).taking fun _ holds =>
    follows_semicolon.passing fun _ _ => follows_pure ⟨terms.stmt _, holds⟩

/-- The only statements that begin with a part of the level further in are expressions. -/
theorem follows_exprStmt {took : Stmt → Bool} (inners : terms.Inners inner inner')
    (may : terms.May late .expr) :
    terms.FollowsAt pre late took (Stmt.Every terms.node) (exprStmt inner) (exprStmt inner') := by
  refine (follows_sequence inners may).taking fun expr holds => follows_peekKind fun kind => ?_
  split
  · refine follows_advancing (.of_kind nofun) fun _ _ => ?_
    exact (inners.stmt (.inl rfl)).taking fun _ body => follows_pure ⟨terms.stmt _, body⟩
  · exact follows_semicolon.passing fun _ _ => follows_pure ⟨terms.stmt _, holds⟩

theorem follows_withStmt {took : Stmt → Bool} (inners : terms.Inners inner inner')
    (real : Real pre) :
    terms.FollowsAt pre late took (Stmt.Every terms.node) (withStmt inner) (withStmt inner') := by
  refine follows_advancing real fun _ _ => ?_
  refine (follows_condition inners).taking fun _ object => ?_
  exact (inners.stmt (.inl rfl)).taking fun _ body => follows_pure ⟨terms.stmt _, object, body⟩

theorem follows_throwStmt {took : Stmt → Bool} (inners : terms.Inners inner inner')
    (real : Real pre) :
    terms.FollowsAt pre late took (Stmt.Every terms.node) (throwStmt inner) (throwStmt inner') := by
  refine follows_advancing real fun _ _ => ?_
  exact (follows_sequence inners (.inl rfl)).taking fun _ holds =>
    follows_semicolon.passing fun _ _ => follows_pure ⟨terms.stmt _, holds⟩

theorem follows_stmtBody {took : Stmt → Bool} (inners : terms.Inners inner inner')
    (may : terms.May late .expr) :
    terms.FollowsAt pre late took (Stmt.Every terms.node) (stmtBody inner) (stmtBody inner') := by
  refine follows_peekKind fun kind => ?_
  split
  · exact (follows_block inners).taking fun _ holds => follows_pure ⟨terms.stmt _, holds⟩
  · exact follows_variablesStmt inners _ (.of_kind nofun)
  · exact follows_variablesStmt inners _ (.of_kind nofun)
  · exact follows_variablesStmt inners _ (.of_kind nofun)
  · exact follows_importStmt (.of_kind nofun)
  · exact follows_exportStmt inners (.of_kind nofun)
  · exact follows_advancing (.of_kind nofun) fun _ _ => follows_pure (terms.stmt _)
  · exact (follows_function inners true).taking fun _ holds =>
      follows_pure ⟨terms.stmt _, holds⟩
  · exact follows_ifStmt inners (.of_kind nofun)
  · exact follows_doWhileStmt inners (.of_kind nofun)
  · exact follows_whileStmt inners (.of_kind nofun)
  · exact follows_forStmt inners (.of_kind nofun)
  · exact follows_advancing (.of_kind nofun) fun _ _ =>
      follows_jumpLabel.passing fun _ _ => follows_pure (terms.stmt _)
  · exact follows_advancing (.of_kind nofun) fun _ _ =>
      follows_jumpLabel.passing fun _ _ => follows_pure (terms.stmt _)
  · exact follows_advancing (.of_kind nofun) fun _ _ =>
      (follows_jumpValue inners).passing fun _ holds => follows_pure ⟨terms.stmt _, holds⟩
  · exact follows_advancing (.of_kind nofun) fun _ _ =>
      (follows_jumpValue inners).passing fun _ holds => follows_pure ⟨terms.stmt _, holds⟩
  · exact follows_withStmt inners (.of_kind nofun)
  · exact follows_switchStmt inners (.of_kind nofun)
  · exact follows_throwStmt inners (.of_kind nofun)
  · exact follows_tryStmt inners (.of_kind nofun)
  · exact follows_advancing (.of_kind nofun) fun _ _ =>
      follows_semicolon.passing fun _ _ => follows_pure (terms.stmt _)
  · exact follows_exprStmt inners may

theorem follows_program (inners : terms.Inners inner inner') (may : terms.May late .stmt) :
    terms.FollowsAt pre late (fun _ => false) (fun script => everyStmt terms.node script.body)
      (program inner) (program inner') :=
  (follows_stmtList inners may).passing fun _ holds =>
    follows_expectEnd.passing fun _ _ => follows_pure holds

theorem follows_wholeSequence {took : Expr → Bool} (inners : terms.Inners inner inner')
    (may : terms.May late .expr) :
    terms.FollowsAt pre late took (Expr.Every terms.node) (wholeSequence inner)
      (wholeSequence inner') :=
  (follows_sequence inners may).taking fun _ holds =>
    follows_expectEnd.passing fun _ _ => follows_pure holds

end Terms

/-! ## Parses of a reader -/

/-- Whether every node of a tree has a property. -/
def Tree.Every (holds : Node → Prop) : Tree → Prop
  | .expr root => root.Every holds
  | .stmts body => everyStmt holds body

/-- A parse that a reader can start, with the parses of the level further in. -/
def Entry.body (inner : Inner) : Entry → Parse Tree
  | .expr least => do return .expr (← inner.expr least)
  | .sequence => do return .expr (← Grammar.sequence inner)
  | .stmt => do return .stmts [← inner.stmt]
  | .stmts => do return .stmts (← stmtList inner)
  | .block => do return .stmts (← Grammar.block inner)
  | .program => do return .stmts (← Grammar.program inner).body

theorem Entry.run_eq (limit : Nat) (entry : Entry) :
    entry.run limit = parsing limit fun inner => entry.body inner := by
  cases entry <;> rfl

/-- Whether a parse takes a token if it succeeds. -/
def Entry.takes : Entry → Bool
  | .expr _ | .sequence | .stmt | .block => true
  | .stmts | .program => false

namespace Terms

theorem follows_entry (inners : terms.Inners inner inner') (may : ∀ part, terms.May late part)
    (entry : Entry) :
    terms.FollowsAt pre late (fun _ => entry.takes) (Tree.Every terms.node) (entry.body inner)
      (entry.body inner') := by
  cases entry with
  | expr least =>
    exact (inners.expr least (may _)).at.taking fun _ holds => follows_pure holds
  | sequence => exact (follows_sequence inners (may _)).taking fun _ holds => follows_pure holds
  | stmt => exact (inners.stmt (may _)).at.taking fun _ holds => follows_pure ⟨holds, trivial⟩
  | stmts => exact (follows_stmtList inners (may _)).passing fun _ holds => follows_pure holds
  | block => exact (follows_block inners).taking fun _ holds => follows_pure holds
  | program => exact (follows_program inners (may _)).passing fun _ holds => follows_pure holds

end Terms
end Grammar
end Scriptlet
