import Scriptlet.Proofs.Attachment

/-!
# Where `in` is no operator

An expression that is read while `in` is no operator is closed for it: every part that is read in
the same setting is, and all other parts stand in brackets. The setting is switched back on for
each kind of brackets, and for the statements of a function, which begin inside of them.
-/

namespace Scriptlet

/-- What is known of an expression that was read with `in` as an operator or not. -/
structure Expr.Attached (node : Node → Prop) (allowed : Bool) (expr : Expr) : Prop where
  every : expr.Every node
  closed : allowed = false → ¬ expr.OpenIn

/-- What is known of a statement that was read up to the token `now`: it does not leave `else` to
a condition around it that one in it could take. -/
structure Stmt.Attached (node : Node → Prop) (stmt : Stmt) (now : Token) : Prop where
  every : stmt.Every node
  closed : stmt.OpenIf → now.kind ≠ .keyword .else_

namespace Expr.Attached

variable {node : Node → Prop} {allowed : Bool} {expr : Expr}

/-- An expression other than the operator `in` is closed if its bare parts are. -/
theorem of_parts (every : expr.Every node)
    (other : allowed = false → ∀ left right, expr ≠ .binary .in_ left right)
    (parts : ∀ part ∈ expr.bareParts, part.Attached node allowed) : expr.Attached node allowed := by
  refine ⟨every, fun off opens => ?_⟩
  rcases opens.cases with ⟨left, right, same⟩ | ⟨part, bare, opens⟩
  · exact other off left right same
  · exact (parts part bare).closed off opens

/-- An expression in brackets, or without parts. -/
theorem of_brackets (every : expr.Every node) (none : expr.bareParts = []) :
    expr.Attached node allowed := by
  refine of_parts every ?_ ?_
  · rintro - left right rfl
    cases none
  · rw [none]
    exact List.forall_mem_nil _

/-- An expression that continues another one. -/
theorem of_part {part : Expr} (every : expr.Every node) (bare : expr.bareParts = [part])
    (known : part.Attached node allowed) : expr.Attached node allowed := by
  refine of_parts every ?_ ?_
  · rintro - left right rfl
    cases bare
  · rw [bare]
    exact List.forall_mem_singleton.mpr known

/-- Where `in` is an operator nothing is asked of the places where it stands. -/
theorem relax (attached : expr.Attached node false) : expr.Attached node allowed :=
  ⟨attached.every, fun _ => attached.closed rfl⟩

end Expr.Attached

namespace Grammar

/-- Two levels whose parts do the same. Statements are read only where `in` is an operator. What
holds of every node of their trees follows from what its words belong to. -/
structure Attaching (node : Node → Prop) (inner inner' : Inner) : Prop where
  settled : ∀ {part : Node}, part.HeadsClosed → part.IfsClosed → node part
  expr : ∀ {allowed} least,
    Meets allowed (Expr.Attached node allowed) (inner.expr least) (inner'.expr least)
  stmt : MeetsAt true (fun _ => True) (Stmt.Attached node) inner.stmt inner'.stmt
  newExpr : ∀ {allowed}, Meets allowed (Expr.Attached node allowed) inner.newExpr inner'.newExpr
  template : ∀ token,
    Gives (fun _ => False) (Expr.Attached node false) (inner.template token) (inner'.template token)

section

variable {α : Type} {allowed : Bool} {pre : Token → Prop} {good : α → Token → Prop}
  {f g : Unit → Parse α}

/-- The check of a target takes nothing, so the token stays the current one. -/
theorem meets_checkTarget (expr : Expr) (second : MeetsAt allowed pre good (f ()) (g ())) :
    MeetsAt allowed pre good (checkTarget expr >>= f) (checkTarget expr >>= g) := by
  unfold checkTarget
  split
  · exact second
  · have fails : MeetsAt allowed pre (fun (_ : Unit) _ => False) (unexpected .assignmentTarget)
        (unexpected .assignmentTarget) :=
      meets_unexpected
    exact fails.passing nofun

theorem meets_checkTargetIf (checks : Bool) (expr : Expr)
    (second : MeetsAt allowed pre good (f ()) (g ())) :
    MeetsAt allowed pre good (if checks = true then checkTarget expr >>= f else f ())
      (if checks = true then checkTarget expr >>= g else g ()) := by
  split
  · exact meets_checkTarget expr second
  · exact second

end

namespace Attaching

variable {node : Node → Prop} {inner inner' : Inner} {allowed : Bool} {pre : Token → Prop}

theorem settled_expr (inners : Attaching node inner inner') (expr : Expr) : node (.expr expr) :=
  inners.settled trivial trivial

/-! ## Lists and functions -/

theorem sequence (inners : Attaching node inner inner') :
    MeetsAt allowed pre (fun expr _ => expr.Attached node allowed) (sequence inner)
      (sequence inner') := by
  refine (meets_separated (inners.expr 0)).passing fun members known => ?_
  split
  · next expr => exact meets_value (known expr (List.mem_singleton_self expr))
  · refine meets_value (.of_parts ⟨inners.settled_expr _, ?_⟩ nofun known)
    exact (everyExpr_iff _).mpr fun member among => (known member among).every

theorem stmtList (inners : Attaching node inner inner') :
    MeetsAt true pre (fun body _ => everyStmt node body) (stmtList inner) (stmtList inner') := by
  have looped : MeetsAt true pre (fun stmts _ => ∀ stmt ∈ stmts, stmt.Every node)
      (loop (stmtStep inner) []) (loop (stmtStep inner') []) := by
    refine meets_loop (fun stmts kept => meets_peekKind fun kind => ?_) (List.forall_mem_nil _)
    split
    · refine inners.stmt.at.bind fun stmt => meets_pure fun now read => ?_
      exact List.forall_mem_cons.mpr ⟨read.every, kept⟩
    · exact meets_value kept
  refine looped.passing fun stmts each => meets_value ((everyStmt_iff _).mpr ?_)
  simpa using each

/-- The statements of a block are read with `in` as an operator, wherever the block stands. -/
theorem block (inners : Attaching node inner inner') :
    MeetsAt allowed pre (fun body _ => everyStmt node body) (block inner) (block inner') := by
  refine meets_expecting fun _ => (meets_withAllowIn inners.stmtList).passing fun _ body => ?_
  exact meets_expecting fun _ => meets_value body

theorem functionRest (inners : Attaching node inner inner') (name : Option String)
    (isGenerator : Bool) :
    MeetsAt allowed pre (fun definition _ => definition.Every node)
      (functionRest inner name isGenerator) (functionRest inner' name isGenerator) := by
  have names : MeetsAt allowed pre (fun _ _ => True) params params :=
    meets_of_follows fun _ => Terms.follows_params
  exact names.passing fun _ _ => inners.block.passing fun _ body => meets_value body

theorem function (inners : Attaching node inner inner') (needsName : Bool) :
    MeetsAt allowed pre (fun definition _ => definition.Every node) (function inner needsName)
      (function inner' needsName) := by
  refine meets_expecting fun _ => meets_eating fun isGenerator => ?_
  refine (meets_of_follows fun _ => Terms.follows_functionName needsName).passing fun name _ => ?_
  exact inners.functionRest name isGenerator

/-! ## Calls and accesses -/

theorem arguments (inners : Attaching node inner inner') :
    MeetsAt allowed pre (fun items _ => everyArgument node items) (arguments inner)
      (arguments inner') := by
  have argument : Meets true (fun argument : Argument => argument.expr.Every node)
      (argument inner) (argument inner') :=
    meets_eating fun _ => (inners.expr 0).passing fun _ known => meets_value known.every
  refine meets_expecting fun _ => meets_withAllowIn (meets_ifEat (meets_value trivial) ?_)
  refine (meets_separated argument).passing fun items each => ?_
  exact meets_expecting fun _ => meets_value ((everyArgument_iff _).mpr each)

theorem indexKey (inners : Attaching node inner inner') :
    MeetsAt allowed pre (fun key _ => key.Every node) (indexKey inner) (indexKey inner') := by
  refine meets_expecting fun _ => (meets_withAllowIn inners.sequence).passing fun key known => ?_
  exact meets_expecting fun _ => meets_value known.every

theorem optionalAccess (inners : Attaching node inner inner') :
    MeetsAt allowed pre (fun access _ => access.Every node) (optionalAccess inner)
      (optionalAccess inner') := by
  refine meets_peekKind fun kind => ?_
  split
  · exact inners.arguments.passing fun _ items => meets_value items
  · exact inners.indexKey.passing fun _ key => meets_value key
  · exact (meets_of_follows fun _ => Terms.follows_memberName).passing fun _ _ =>
      meets_value trivial

theorem access (inners : Attaching node inner inner') {object : Expr}
    (known : object.Attached node allowed) :
    MeetsAt allowed pre (fun expr _ => expr.Attached node allowed) (access inner object)
      (access inner' object) := by
  refine meets_peekKind fun kind => ?_
  split
  · exact inners.arguments.passing fun _ items =>
      meets_value (.of_part ⟨inners.settled_expr _, known.every, items⟩ rfl known)
  · refine meets_advancing fun _ => ?_
    exact (meets_of_follows fun _ => Terms.follows_memberName).passing fun _ _ =>
      meets_value (.of_part ⟨inners.settled_expr _, known.every⟩ rfl known)
  · exact inners.indexKey.passing fun _ key =>
      meets_value (.of_part ⟨inners.settled_expr _, known.every, key⟩ rfl known)
  · exact meets_advancing fun _ => inners.optionalAccess.passing fun _ access =>
      meets_value (.of_part ⟨inners.settled_expr _, known.every, access⟩ rfl known)
  · exact meets_unexpected

/-! ## Operands -/

theorem arrayLiteral (inners : Attaching node inner inner') :
    MeetsAt allowed pre (fun expr _ => expr.Attached node allowed) (arrayLiteral inner)
      (arrayLiteral inner') := by
  have element : Meets true (Element.Every node) (element inner) (element inner') := by
    refine meets_peekKind fun kind => ?_
    split
    · exact meets_value trivial
    · refine meets_ifEat ?_ ?_
      · exact (inners.expr 0).passing fun _ known => meets_value known.every
      · exact (inners.expr 0).passing fun _ known => meets_value known.every
  refine meets_expecting fun _ => ?_
  refine (meets_withAllowIn (meets_closedList _ element)).passing fun elements each => ?_
  exact meets_value (.of_brackets ⟨inners.settled_expr _, (everyElement_iff _).mpr each⟩ rfl)

theorem propertyName (inners : Attaching node inner inner') :
    MeetsAt allowed pre (fun name _ => name.Every node) (propertyName inner)
      (propertyName inner') := by
  refine meets_peek fun token _ => ?_
  split
  · exact meets_advancing fun _ => meets_value trivial
  · refine meets_advancing fun _ => ?_
    exact (meets_of_follows fun _ => Terms.follows_numberOf token).passing fun _ _ =>
      meets_value trivial
  · refine meets_advancing fun _ => (inners.expr 0).passing fun expr known => ?_
    exact meets_expecting fun _ => meets_value known.every
  · split
    · exact meets_advancing fun _ => meets_value trivial
    · exact meets_unexpected

theorem propertyRest (inners : Attaching node inner inner') (shorthand : Option String)
    {name : PropertyName} (known : name.Every node) :
    MeetsAt allowed pre (fun property _ => property.Every node) (propertyRest inner shorthand name)
      (propertyRest inner' shorthand name) := by
  refine meets_peekKind fun kind => ?_
  split
  · exact meets_advancing fun _ => (inners.expr 0).passing fun _ value =>
      meets_value ⟨known, value.every⟩
  · exact (inners.functionRest _ false).passing fun _ method => meets_value ⟨known, method⟩
  · exact meets_value trivial
  · exact meets_value trivial
  · exact meets_unexpected

theorem objectLiteral (inners : Attaching node inner inner') :
    MeetsAt allowed pre (fun expr _ => expr.Attached node allowed) (objectLiteral inner)
      (objectLiteral inner') := by
  have property : Meets true (Property.Every node) (property inner) (property inner') := by
    refine meets_ifEat ?_ (meets_peek fun token _ => ?_)
    · exact (inners.expr 0).passing fun _ known => meets_value known.every
    · exact inners.propertyName.passing fun _ name => inners.propertyRest _ name
  refine meets_expecting fun _ => ?_
  refine (meets_withAllowIn (meets_closedList _ property)).passing fun properties each => ?_
  exact meets_value (.of_brackets ⟨inners.settled_expr _, (everyProperty_iff _).mpr each⟩ rfl)

theorem updateBefore (inners : Attaching node inner inner') (op : UpdateOp) :
    MeetsAt allowed pre (fun expr _ => expr.Attached node allowed) (updateBefore inner op)
      (updateBefore inner' op) := by
  refine meets_advancing fun _ => (inners.expr operandPower).passing fun target known => ?_
  exact meets_checkTarget target
    (meets_value (.of_part ⟨inners.settled_expr _, known.every⟩ rfl known))

theorem unaryOperand (inners : Attaching node inner inner') (kind : Kind) :
    MeetsAt allowed pre (fun expr _ => expr.Attached node allowed) (unaryOperand inner kind)
      (unaryOperand inner' kind) := by
  unfold Grammar.unaryOperand
  split
  · exact meets_advancing fun _ => (inners.expr operandPower).passing fun _ known =>
      meets_value (.of_part ⟨inners.settled_expr _, known.every⟩ rfl known)
  · exact meets_unexpected

theorem parenthesized (inners : Attaching node inner inner') :
    MeetsAt allowed pre (fun expr _ => expr.Attached node allowed) (parenthesized inner)
      (parenthesized inner') := by
  refine meets_advancing fun _ => (meets_withAllowIn inners.sequence).passing fun _ known => ?_
  exact meets_expecting fun _ =>
    meets_value (.of_brackets ⟨inners.settled_expr _, known.every⟩ rfl)

theorem literal (inners : Attaching node inner inner') :
    MeetsAt allowed pre (fun expr _ => expr.Attached node allowed) literal literal := by
  refine meets_advancing fun token => ?_
  split
  · exact (meets_of_follows fun _ => Terms.follows_numberOf token).passing fun _ _ =>
      meets_value (.of_brackets (inners.settled_expr _) rfl)
  · exact meets_value (.of_brackets (inners.settled_expr _) rfl)
  · exact meets_value (.of_brackets (inners.settled_expr _) rfl)
  · exact meets_value (.of_brackets (inners.settled_expr _) rfl)
  · exact meets_throw

theorem operand (inners : Attaching node inner inner') :
    MeetsAt allowed pre (fun expr _ => expr.Attached node allowed) (operand inner)
      (operand inner') := by
  refine meets_peek fun token _ => ?_
  split
  · exact inners.literal
  · exact inners.literal
  · exact inners.literal
  · exact inners.literal
  · refine meets_advancing fun _ => (meets_ofExcept (inners.template token)).weaken ?_
    exact fun _ _ known => known.relax
  · exact meets_advancing fun _ => meets_value (.of_brackets (inners.settled_expr _) rfl)
  · exact meets_advancing fun _ => meets_value (.of_brackets (inners.settled_expr _) rfl)
  · exact inners.parenthesized
  · exact inners.arrayLiteral
  · exact inners.objectLiteral
  · exact (inners.function false).passing fun _ definition =>
      meets_value (.of_brackets ⟨inners.settled_expr _, definition⟩ rfl)
  · exact inners.newExpr.at
  · exact inners.updateBefore .increment
  · exact inners.updateBefore .decrement
  · exact meets_throw
  · exact meets_throw
  · exact inners.unaryOperand token.kind

/-! ## New -/

theorem newAccess (inners : Attaching node inner inner') {callee : Expr}
    (known : callee.Attached node allowed) :
    Meets allowed (fun found => found.value.Attached node allowed) (newAccess inner callee)
      (newAccess inner' callee) := by
  refine meets_peekKind fun kind => ?_
  split
  · exact (inners.access known).passing fun _ longer => meets_value longer
  · exact (inners.access known).passing fun _ longer => meets_value longer
  · exact meets_value known

theorem newArguments (inners : Attaching node inner inner') :
    MeetsAt allowed pre (fun items _ => everyOptionalArgument node items) (newArguments inner)
      (newArguments inner') := by
  refine meets_peekKind fun kind => ?_
  split
  · exact inners.arguments.passing fun _ items => meets_value items
  · exact meets_value trivial

theorem newBody (inners : Attaching node inner inner') :
    Meets allowed (Expr.Attached node allowed) (newBody inner) (newBody inner') := by
  -- The accesses and the arguments follow both kinds of callee.
  have rest (first : Expr) (known : first.Attached node allowed) :
      Meets allowed (Expr.Attached node allowed)
        (do
          let callee ← loop (Grammar.newAccess inner) first
          return .new callee (← Grammar.newArguments inner))
        (do
          let callee ← loop (Grammar.newAccess inner') first
          return .new callee (← Grammar.newArguments inner')) := by
    refine (meets_loop (fun _ kept => inners.newAccess kept) known).passing fun callee known => ?_
    exact inners.newArguments.passing fun _ items =>
      meets_value (.of_part ⟨inners.settled_expr _, known.every, items⟩ rfl known)
  refine meets_expecting fun _ => meets_peekKind fun kind => ?_
  dsimp only
  split
  · exact inners.newExpr.at.passing rest
  · exact inners.operand.passing rest

/-! ## Operations -/

theorem conditional (inners : Attaching node inner inner') {test : Expr}
    (known : test.Attached node allowed) :
    MeetsAt allowed pre (fun expr _ => expr.Attached node allowed) (conditional inner test)
      (conditional inner' test) := by
  refine meets_advancing fun _ => ?_
  refine (meets_withAllowIn (inners.expr 0)).at.passing fun consequent first => ?_
  refine meets_expecting fun _ => (inners.expr alternatePower).passing fun alternate second => ?_
  refine meets_value (.of_parts ?_ nofun ?_)
  · exact ⟨inners.settled_expr _, known.every, first.every, second.every⟩
  · exact List.forall_mem_cons.mpr ⟨known, List.forall_mem_singleton.mpr second⟩

/-- An operation other than `in` leaves its expression as closed as its operands. -/
theorem attached_apply (inners : Attaching node inner inner') {operation : Operation}
    {left right : Expr} (first : left.Attached node allowed) (second : right.Attached node allowed)
    (other : allowed = false → operation ≠ .binary .in_) :
    (operation.apply left right).Attached node allowed := by
  have parts : ∀ part ∈ [left, right], part.Attached node allowed :=
    List.forall_mem_cons.mpr ⟨first, List.forall_mem_singleton.mpr second⟩
  cases operation with
  | assign => exact .of_parts ⟨inners.settled_expr _, first.every, second.every⟩ nofun parts
  | assignWith op => exact .of_parts ⟨inners.settled_expr _, first.every, second.every⟩ nofun parts
  | binary op =>
    refine .of_parts ⟨inners.settled_expr _, first.every, second.every⟩ ?_ parts
    rintro off _ _ same
    cases same
    exact other off rfl

theorem operate (inners : Attaching node inner inner') (powers : Nat × Nat) {left : Expr}
    (known : left.Attached node allowed)
    (other : allowed = false → ∀ token, pre token → token.kind ≠ .keyword .in_) :
    MeetsAt allowed pre (fun expr _ => expr.Attached node allowed) (operate inner powers left)
      (operate inner' powers left) := by
  refine meets_peek fun token holds => meets_checkTargetIf _ left (meets_advancing fun _ => ?_)
  refine (inners.expr powers.2).passing fun right second => ?_
  split
  · next operation is =>
    refine meets_value (inners.attached_apply known second fun off => ?_)
    rintro rfl
    exact other off token holds (Option.some.inj (Kind.operation?_eq_some_iff.mp is)).symm
  · exact meets_throw

theorem suffix (inners : Attaching node inner inner') (least : Nat) {left : Expr}
    (known : left.Attached node allowed) :
    Meets allowed (fun found => found.value.Attached node allowed) (suffix inner least left)
      (suffix inner' least left) := by
  have goes {pre : Token → Prop} {x y : Parse Expr}
      (meets : MeetsAt allowed pre (fun expr _ => expr.Attached node allowed) x y) :
      MeetsAt allowed pre (fun found _ => found.value.Attached node allowed)
        (do return Step.again (← x)) (do return Step.again (← y)) :=
    meets.passing fun _ longer => meets_value longer
  refine meets_peek fun token _ => ?_
  split
  · split
    · exact meets_value known
    · exact goes (inners.access known)
  · split
    · exact meets_value known
    · refine meets_checkTarget left (meets_advancing fun _ => ?_)
      exact meets_value (.of_part ⟨inners.settled_expr _, known.every⟩ rfl known)
  · split
    · exact meets_value known
    · exact goes (inners.conditional known)
  · refine meets_allowsIn ?_
    split
    · exact meets_value known
    · -- The operator is not `in` where that is none.
      next takes =>
      refine goes (inners.operate _ known ?_)
      rintro off _ rfl isIn
      simp [off, isIn] at takes
  · exact meets_value known

theorem exprBody (inners : Attaching node inner inner') (least : Nat) :
    Meets allowed (Expr.Attached node allowed) (exprBody inner least) (exprBody inner' least) :=
  inners.operand.passing fun _ known => meets_loop (fun _ kept => inners.suffix least kept) known

end Attaching
end Grammar
end Scriptlet
