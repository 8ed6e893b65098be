import Scriptlet.Grammar.Operation
import Scriptlet.Proofs.Course

/-!
# The course of expressions

Each function of the grammar for expressions takes the same course with two levels further in
that do so. What begins with a token of its own takes that token; what begins with a part of
the level further in needs that part to be allowed before the first token.
-/

namespace Scriptlet
namespace Grammar
namespace Terms

/-- Whether a part of the level further in may be used: after the first token any part may. -/
abbrev May (terms : Terms) (late : Bool) (part : Part) : Prop :=
  late = true ∨ terms.early part

/-- Two levels whose parts take the same course, and take a token, where they may be used. -/
structure Inners (terms : Terms) (inner inner' : Inner) : Prop where
  expr : ∀ {late took} least, terms.May late .expr →
    terms.Follows late took (Expr.Every terms.node) (inner.expr least) (inner'.expr least)
  stmt : ∀ {late took}, terms.May late .stmt →
    terms.Follows late took (Stmt.Every terms.node) inner.stmt inner'.stmt
  newExpr : ∀ {late took}, terms.May late .newExpr →
    terms.Follows late took (Expr.Every terms.node) inner.newExpr inner'.newExpr
  template : ∀ {token}, terms.Knows token → token.kind = .template →
    Gives terms.givesUp (Expr.Every terms.node) (inner.template token) (inner'.template token)

variable {terms : Terms} {pre : Token → Prop} {late : Bool} {inner inner' : Inner}

/-! ## Lists and functions -/

theorem follows_sequence {took : Expr → Bool} (inners : terms.Inners inner inner')
    (may : terms.May late .expr) :
    terms.FollowsAt pre late took (Expr.Every terms.node) (sequence inner) (sequence inner') := by
  refine (follows_separated (inners.expr 0 may)).taking fun members holds => ?_
  split
  · next expr => exact follows_pure (holds expr (List.mem_singleton_self expr))
  · exact follows_pure ⟨terms.expr nofun, (everyExpr_iff _).mpr holds⟩

theorem follows_stmtStep (inners : terms.Inners inner inner') (may : terms.May late .stmt)
    {stmts : List Stmt} (kept : ∀ stmt ∈ stmts, Stmt.Every terms.node stmt) :
    terms.FollowsAt pre late Step.goesOn
      (fun found => ∀ stmt ∈ found.value, Stmt.Every terms.node stmt) (stmtStep inner stmts)
      (stmtStep inner' stmts) := by
  refine follows_peekKind fun kind => ?_
  split
  · refine (inners.stmt may).at.taking fun stmt holds => ?_
    exact follows_pure (List.forall_mem_cons.mpr ⟨holds, kept⟩)
  · exact follows_value kept rfl

theorem follows_stmtList (inners : terms.Inners inner inner') (may : terms.May late .stmt) :
    terms.FollowsAt pre late (fun _ => false) (everyStmt terms.node) (stmtList inner)
      (stmtList inner') := by
  have looped : terms.FollowsAt pre late (fun _ => false)
      (fun stmts => ∀ stmt ∈ stmts, Stmt.Every terms.node stmt) (loop (stmtStep inner) [])
      (loop (stmtStep inner') []) := by
    refine follows_loop (fun stmts kept => ?_) (List.forall_mem_nil _)
    simpa using follows_stmtStep inners may kept
  refine looped.passing fun stmts holds => follows_pure ((everyStmt_iff _).mpr ?_)
  simpa using holds

theorem follows_block {took : List Stmt → Bool} (inners : terms.Inners inner inner') :
    terms.FollowsAt pre late took (everyStmt terms.node) (block inner) (block inner') := by
  refine follows_expecting nofun fun _ _ => ?_
  refine (follows_withAllowIn true (follows_stmtList inners (.inl rfl))).passing fun _ holds => ?_
  exact follows_expecting nofun fun _ _ => follows_pure holds

theorem follows_params {took : List String → Bool} :
    terms.FollowsAt pre late took (fun _ => True) params params := by
  refine follows_expecting nofun fun _ _ => follows_ifEat nofun (follows_pure trivial) ?_
  refine (follows_separated follows_expectIdentifier).taking fun names _ => ?_
  exact follows_expecting nofun fun _ _ => follows_pure trivial

theorem follows_functionRest {took : FunctionDefinition → Bool}
    (inners : terms.Inners inner inner') (name : Option String) (isGenerator : Bool) :
    terms.FollowsAt pre late took (FunctionDefinition.Every terms.node)
      (functionRest inner name isGenerator) (functionRest inner' name isGenerator) := by
  refine follows_params.taking fun names _ => (follows_block inners).taking fun body holds => ?_
  exact follows_pure holds

theorem follows_functionName (needsName : Bool) :
    terms.FollowsAt pre late (fun _ => false) (fun _ => True) (functionName needsName)
      (functionName needsName) := by
  refine follows_peekKind fun kind => ?_
  split
  · exact follows_expectIdentifier.taking fun _ _ => follows_pure trivial
  · exact follows_pure trivial

theorem follows_function {took : FunctionDefinition → Bool} (inners : terms.Inners inner inner')
    (needsName : Bool) :
    terms.FollowsAt pre late took (FunctionDefinition.Every terms.node) (function inner needsName)
      (function inner' needsName) := by
  refine follows_expecting nofun fun _ _ => follows_eating nofun fun isGenerator => ?_
  refine (follows_functionName needsName).passing fun name _ => ?_
  exact follows_functionRest inners name isGenerator

/-! ## Calls and accesses -/

theorem follows_argument {took : Argument → Bool} (inners : terms.Inners inner inner')
    (may : terms.May late .expr) :
    terms.FollowsAt pre late took (fun argument => argument.expr.Every terms.node)
      (argument inner) (argument inner') := by
  refine follows_eating nofun fun spread => ?_
  refine (inners.expr 0 (may.imp_left ?_)).taking fun expr holds => follows_pure holds
  simp +contextual

theorem follows_arguments {took : List Argument → Bool} (inners : terms.Inners inner inner') :
    terms.FollowsAt pre late took (everyArgument terms.node) (arguments inner)
      (arguments inner') := by
  refine follows_expecting nofun fun _ _ => follows_withAllowIn true ?_
  refine follows_ifEat nofun (follows_pure trivial) ?_
  refine (follows_separated (follows_argument inners (.inl rfl))).taking fun items holds => ?_
  exact follows_expecting nofun fun _ _ => follows_pure ((everyArgument_iff _).mpr holds)

theorem follows_indexKey {took : Expr → Bool} (inners : terms.Inners inner inner') :
    terms.FollowsAt pre late took (Expr.Every terms.node) (indexKey inner) (indexKey inner') := by
  refine follows_expecting nofun fun _ _ => ?_
  refine (follows_withAllowIn true (follows_sequence inners (.inl rfl))).taking fun key holds => ?_
  exact follows_expecting nofun fun _ _ => follows_pure holds

theorem follows_memberName {took : String → Bool} :
    terms.FollowsAt pre late took (fun _ => True) memberName memberName := by
  refine follows_peekKind fun kind => ?_
  split
  · next word =>
    have real : kind ≠ .eof := by
      rintro rfl
      cases word
    exact follows_advancing (.of_kind real) fun _ _ => follows_pure trivial
  · exact follows_unexpected

theorem follows_optionalAccess {took : Access → Bool} (inners : terms.Inners inner inner') :
    terms.FollowsAt pre late took (Access.Every terms.node) (optionalAccess inner)
      (optionalAccess inner') := by
  refine follows_peekKind fun kind => ?_
  split
  · exact (follows_arguments inners).taking fun _ holds => follows_pure holds
  · exact (follows_indexKey inners).taking fun _ holds => follows_pure holds
  · exact follows_memberName.taking fun _ _ => follows_pure trivial

theorem follows_access {took : Expr → Bool} (inners : terms.Inners inner inner') {object : Expr}
    (known : object.Every terms.node) :
    terms.FollowsAt pre late took (Expr.Every terms.node) (access inner object)
      (access inner' object) := by
  refine follows_peekKind fun kind => ?_
  split
  · exact (follows_arguments inners).taking fun _ holds =>
      follows_pure ⟨terms.expr nofun, known, holds⟩
  · refine follows_advancing (.of_kind nofun) fun _ _ => follows_memberName.taking fun _ _ => ?_
    exact follows_pure ⟨terms.expr nofun, known⟩
  · exact (follows_indexKey inners).taking fun _ holds =>
      follows_pure ⟨terms.expr nofun, known, holds⟩
  · refine follows_advancing (.of_kind nofun) fun _ _ => ?_
    exact (follows_optionalAccess inners).taking fun _ holds =>
      follows_pure ⟨terms.expr nofun, known, holds⟩
  · exact follows_unexpected

/-! ## Operands -/

/-- The check of a target takes nothing, so the token stays the current one. -/
theorem follows_checkTarget {α : Type} {took : α → Bool} {good : α → Prop} (expr : Expr)
    {f g : Unit → Parse α} (second : terms.FollowsAt pre late took good (f ()) (g ())) :
    terms.FollowsAt pre late took good (checkTarget expr >>= f) (checkTarget expr >>= g) := by
  unfold checkTarget
  split
  · exact second
  · have fails : terms.FollowsAt pre late (fun _ : Unit => false) (fun _ => False)
        (unexpected .assignmentTarget) (unexpected .assignmentTarget) :=
      follows_unexpected
    exact fails.passing nofun

theorem follows_checkTargetIf {α : Type} {took : α → Bool} {good : α → Prop} (checks : Bool)
    (expr : Expr) {f g : Unit → Parse α}
    (second : terms.FollowsAt pre late took good (f ()) (g ())) :
    terms.FollowsAt pre late took good (if checks = true then checkTarget expr >>= f else f ())
      (if checks = true then checkTarget expr >>= g else g ()) := by
  split
  · exact follows_checkTarget expr second
  · exact second

theorem follows_numberOf (token : Token) :
    terms.FollowsAt pre late (fun _ => false) (fun _ => True) (ofExcept (numberOf token))
      (ofExcept (numberOf token)) :=
  follows_ofExcept (.of_eq rfl fun _ _ => trivial)

theorem follows_element (inners : terms.Inners inner inner') (may : terms.May late .expr) :
    terms.FollowsAt pre late (fun _ => false) (Element.Every terms.node) (element inner)
      (element inner') := by
  refine follows_peekKind fun kind => ?_
  split
  · exact follows_pure trivial
  · refine follows_ifEat nofun ?_ ?_
    · exact (inners.expr 0 (.inl rfl)).taking fun _ holds => follows_pure holds
    · exact (inners.expr 0 may).taking fun _ holds => follows_pure holds

theorem follows_arrayLiteral {took : Expr → Bool} (inners : terms.Inners inner inner') :
    terms.FollowsAt pre late took (Expr.Every terms.node) (arrayLiteral inner)
      (arrayLiteral inner') := by
  refine follows_expecting nofun fun _ _ => ?_
  refine (follows_withAllowIn true
    (follows_closedList _ (follows_element inners (.inl rfl)))).taking fun _ holds => ?_
  exact follows_pure ⟨terms.expr nofun, (everyElement_iff _).mpr holds⟩

theorem follows_propertyName {took : PropertyName → Bool} (inners : terms.Inners inner inner') :
    terms.FollowsAt pre late took (PropertyName.Every terms.node) (propertyName inner)
      (propertyName inner') := by
  refine follows_peek fun token _ _ => ?_
  split
  · next is => exact follows_advancing (.of_eq is nofun) fun _ _ => follows_pure trivial
  · next is =>
    refine follows_advancing (.of_eq is nofun) fun _ _ => ?_
    exact (follows_numberOf token).passing fun _ _ => follows_pure trivial
  · next is =>
    refine follows_advancing (.of_eq is nofun) fun _ _ => ?_
    refine (inners.expr 0 (.inl rfl)).taking fun expr holds => ?_
    exact follows_expecting nofun fun _ _ => follows_pure holds
  · split
    · next word =>
      have real : token.kind ≠ .eof := by
        intro is
        rw [is] at word
        cases word
      exact follows_advancing (.of_eq rfl real) fun _ _ => follows_pure trivial
    · exact follows_unexpected

theorem follows_propertyRest (inners : terms.Inners inner inner') (shorthand : Option String)
    {name : PropertyName} (known : name.Every terms.node) :
    terms.FollowsAt pre late (fun _ => false) (Property.Every terms.node)
      (propertyRest inner shorthand name) (propertyRest inner' shorthand name) := by
  refine follows_peekKind fun kind => ?_
  split
  · refine follows_advancing (.of_kind nofun) fun _ _ => ?_
    exact (inners.expr 0 (.inl rfl)).taking fun _ holds => follows_pure ⟨known, holds⟩
  · exact (follows_functionRest inners _ false).taking fun _ holds => follows_pure ⟨known, holds⟩
  · exact follows_pure trivial
  · exact follows_pure trivial
  · exact follows_unexpected

theorem follows_property {took : Property → Bool} (inners : terms.Inners inner inner') :
    terms.FollowsAt pre late took (Property.Every terms.node) (property inner)
      (property inner') := by
  refine follows_ifEat nofun ?_ ?_
  · exact (inners.expr 0 (.inl rfl)).taking fun _ holds => follows_pure holds
  · refine follows_peek fun token _ _ => ?_
    exact (follows_propertyName inners).taking fun name holds =>
      follows_propertyRest inners _ holds

theorem follows_objectLiteral {took : Expr → Bool} (inners : terms.Inners inner inner') :
    terms.FollowsAt pre late took (Expr.Every terms.node) (objectLiteral inner)
      (objectLiteral inner') := by
  refine follows_expecting nofun fun _ _ => ?_
  refine (follows_withAllowIn true (follows_closedList _ (follows_property inners))).taking
    fun _ holds => ?_
  exact follows_pure ⟨terms.expr nofun, (everyProperty_iff _).mpr holds⟩

theorem follows_updateBefore {took : Expr → Bool} (inners : terms.Inners inner inner')
    (op : UpdateOp) (real : Real pre) :
    terms.FollowsAt pre late took (Expr.Every terms.node) (updateBefore inner op)
      (updateBefore inner' op) := by
  refine follows_advancing real fun _ _ => ?_
  refine (inners.expr operandPower (.inl rfl)).taking fun target holds => ?_
  exact follows_checkTarget target (follows_pure ⟨terms.expr nofun, holds⟩)

theorem follows_unaryOperand {took : Expr → Bool} (inners : terms.Inners inner inner')
    (kind : Kind) :
    terms.FollowsAt (·.kind = kind) late took (Expr.Every terms.node) (unaryOperand inner kind)
      (unaryOperand inner' kind) := by
  unfold unaryOperand
  split
  · next op is =>
    have real : Real (·.kind = kind) := by
      rintro token rfl isEnd
      rw [isEnd] at is
      cases is
    refine follows_advancing real fun _ _ => ?_
    exact (inners.expr operandPower (.inl rfl)).taking fun _ holds =>
      follows_pure ⟨terms.expr nofun, holds⟩
  · exact follows_unexpected

theorem follows_parenthesized {took : Expr → Bool} (inners : terms.Inners inner inner')
    (real : Real pre) :
    terms.FollowsAt pre late took (Expr.Every terms.node) (parenthesized inner)
      (parenthesized inner') := by
  refine follows_advancing real fun _ _ => ?_
  refine (follows_withAllowIn true (follows_sequence inners (.inl rfl))).taking fun _ holds => ?_
  exact follows_expecting nofun fun _ _ => follows_pure ⟨terms.expr nofun, holds⟩

theorem follows_literal {took : Expr → Bool} (real : Real pre) :
    terms.FollowsAt pre late took (Expr.Every terms.node) literal literal := by
  refine follows_advancing real fun token _ => ?_
  split
  · exact (follows_numberOf token).passing fun _ _ => follows_pure (terms.expr nofun)
  · exact follows_pure (terms.expr nofun)
  · exact follows_pure (terms.expr nofun)
  · exact follows_pure (terms.expr nofun)
  · exact follows_throw

/-- The only operand that begins with a part of the level further in begins with `new`. -/
theorem follows_operand {took : Expr → Bool} (inners : terms.Inners inner inner')
    (may : terms.May late .newExpr) :
    terms.FollowsAt pre late took (Expr.Every terms.node) (operand inner) (operand inner') := by
  refine follows_peek fun token known _ => ?_
  split
  · next is => exact follows_literal (.of_eq is nofun)
  · next is => exact follows_literal (.of_eq is nofun)
  · next is => exact follows_literal (.of_eq is nofun)
  · next is => exact follows_literal (.of_eq is nofun)
  · next is =>
    refine follows_advancing (.of_eq is nofun) fun _ _ => ?_
    exact follows_ofExcept (inners.template known is)
  · next is =>
    exact follows_advancing (.of_eq is nofun) fun _ _ => follows_pure (terms.expr nofun)
  · next is =>
    exact follows_advancing (.of_eq is nofun) fun _ _ => follows_pure (terms.expr nofun)
  · next is => exact follows_parenthesized inners (.of_eq is nofun)
  · exact follows_arrayLiteral inners
  · exact follows_objectLiteral inners
  · exact (follows_function inners false).taking fun _ holds =>
      follows_pure ⟨terms.expr nofun, holds⟩
  · exact (inners.newExpr may).at
  · next is => exact follows_updateBefore inners .increment (.of_eq is nofun)
  · next is => exact follows_updateBefore inners .decrement (.of_eq is nofun)
  · exact follows_throw
  · exact follows_throw
  · exact fun state stands same => follows_unaryOperand inners token.kind state stands (same ▸ rfl)

/-! ## New -/

theorem follows_newAccess (inners : terms.Inners inner inner') {callee : Expr}
    (known : callee.Every terms.node) :
    terms.FollowsAt pre late Step.goesOn (fun found => found.value.Every terms.node)
      (newAccess inner callee) (newAccess inner' callee) := by
  refine follows_peekKind fun kind => ?_
  split
  · exact (follows_access inners known).taking fun _ holds => follows_pure holds
  · exact (follows_access inners known).taking fun _ holds => follows_pure holds
  · exact follows_value known rfl

theorem follows_newArguments (inners : terms.Inners inner inner') :
    terms.FollowsAt pre late (fun _ => false) (everyOptionalArgument terms.node)
      (newArguments inner) (newArguments inner') := by
  refine follows_peekKind fun kind => ?_
  split
  · exact (follows_arguments inners).taking fun _ given => follows_pure given
  · exact follows_pure trivial

theorem follows_newBody {took : Expr → Bool} (inners : terms.Inners inner inner') :
    terms.FollowsAt pre late took (Expr.Every terms.node) (newBody inner) (newBody inner') := by
  -- The accesses and the arguments follow both kinds of callee.
  have rest (first : Expr) (known : first.Every terms.node) :
      terms.Follows true (fun _ => false) (Expr.Every terms.node)
        (do
          let callee ← loop (newAccess inner) first
          return .new callee (← newArguments inner))
        (do
          let callee ← loop (newAccess inner') first
          return .new callee (← newArguments inner')) := by
    have looped : terms.Follows true (fun _ => false) (Expr.Every terms.node)
        (loop (newAccess inner) first) (loop (newAccess inner') first) := by
      refine follows_loop (fun callee kept => ?_) known
      simpa using follows_newAccess inners kept
    refine looped.passing fun callee holds => ?_
    exact (follows_newArguments inners).passing fun _ given =>
      follows_pure ⟨terms.expr nofun, holds, given⟩
  refine follows_expecting nofun fun _ _ => follows_peekKind fun kind => ?_
  dsimp only
  split
  · exact (inners.newExpr (.inl rfl)).at.taking rest
  · exact (follows_operand inners (.inl rfl)).taking rest

/-! ## Operations -/

theorem follows_conditional {took : Expr → Bool} (inners : terms.Inners inner inner')
    {test : Expr} (known : test.Every terms.node) (real : Real pre) :
    terms.FollowsAt pre late took (Expr.Every terms.node) (conditional inner test)
      (conditional inner' test) := by
  refine follows_advancing real fun _ _ => ?_
  refine (follows_withAllowIn true (inners.expr 0 (.inl rfl))).taking fun consequent first => ?_
  refine follows_expecting nofun fun _ _ => ?_
  exact (inners.expr alternatePower (.inl rfl)).taking fun alternate second =>
    follows_pure ⟨terms.expr nofun, known, first, second⟩

theorem follows_operate {took : Expr → Bool} (inners : terms.Inners inner inner')
    (powers : Nat × Nat) {left : Expr} (known : left.Every terms.node) (real : Real pre) :
    terms.FollowsAt pre late took (Expr.Every terms.node) (operate inner powers left)
      (operate inner' powers left) := by
  refine follows_peek fun token _ holds => follows_checkTargetIf _ left ?_
  refine follows_advancing (.of_eq rfl (real token holds)) fun _ _ => ?_
  refine (inners.expr powers.2 (.inl rfl)).taking fun right second => ?_
  split
  · next operation _ =>
    refine follows_pure ?_
    cases operation with
    | assign => exact ⟨terms.expr nofun, known, second⟩
    | assignWith op => exact ⟨terms.expr nofun, known, second⟩
    | binary op => exact ⟨terms.expr nofun, known, second⟩
  · exact follows_throw

theorem follows_suffix (inners : terms.Inners inner inner') (least : Nat) {left : Expr}
    (known : left.Every terms.node) :
    terms.FollowsAt pre late Step.goesOn (fun found => found.value.Every terms.node)
      (suffix inner least left) (suffix inner' least left) := by
  have stops {pre : Token → Prop} :
      terms.FollowsAt pre late Step.goesOn (fun found => found.value.Every terms.node)
        (pure (Step.done left)) (pure (Step.done left)) :=
    follows_value known rfl
  have goes {pre : Token → Prop} {x y : Parse Expr}
      (follows : terms.FollowsAt pre late (fun _ => true) (Expr.Every terms.node) x y) :
      terms.FollowsAt pre late Step.goesOn (fun found => found.value.Every terms.node)
        (do return Step.again (← x)) (do return Step.again (← y)) :=
    follows.taking fun _ holds => follows_pure holds
  refine follows_peek fun token _ _ => ?_
  have real (some : token.kind.suffix ≠ .none) : Real (· = token) :=
    .of_eq rfl fun isEnd => some (isEnd ▸ rfl)
  split
  · split
    · exact stops
    · exact goes (follows_access inners known)
  · next op is =>
    split
    · exact stops
    · refine follows_checkTarget left (follows_advancing (real (is ▸ nofun)) fun _ _ => ?_)
      exact follows_pure ⟨terms.expr nofun, known⟩
  · next is =>
    split
    · exact stops
    · exact goes (follows_conditional inners known (real (is ▸ nofun)))
  · next powers is =>
    refine follows_allowsIn fun allowed => ?_
    split
    · exact stops
    · exact goes (follows_operate inners powers known (real (is ▸ nofun)))
  · exact stops

theorem follows_exprBody {took : Expr → Bool} (inners : terms.Inners inner inner')
    (may : terms.May late .newExpr) (least : Nat) :
    terms.FollowsAt pre late took (Expr.Every terms.node) (exprBody inner least)
      (exprBody inner' least) := by
  refine (follows_operand inners may).taking fun first known => ?_
  refine follows_loop (fun left kept => ?_) known
  simpa using follows_suffix inners least kept

end Terms
end Grammar
end Scriptlet
