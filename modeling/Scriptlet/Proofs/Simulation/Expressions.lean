import Scriptlet.Grammar.Operation
import Scriptlet.Proofs.Simulation
import Scriptlet.Proofs.WellFormed

/-!
# Expressions side by side

What the grammar reads from related tokens is the same tree, and a well-formed one. Each
function of the grammar for expressions has its lemma, from what the level further in reads.
-/

namespace Scriptlet

/-- An assignment joins only with operators that compute. -/
theorem Kind.decides_of_operation {kind : Kind} {op : BinaryOp}
    (found : kind.operation? = some (.assignWith op)) : op.decides = false := by
  rw [Kind.operation?_eq_some_iff] at found
  cases op <;> first | rfl | cases found

namespace Grammar
namespace Simulation

/-- Two levels that read the same well-formed trees. -/
structure Inners (sim : Simulation) (inner inner' : Inner) : Prop where
  expr : ∀ least, sim.Runs (Agreed Expr.WellFormed) (inner.expr least) (inner'.expr least)
  stmt : sim.Runs (Agreed Stmt.WellFormed) inner.stmt inner'.stmt
  newExpr : sim.Runs (Agreed Expr.WellFormed) inner.newExpr inner'.newExpr
  template : ∀ {a b}, sim.token a b → a.kind = .template →
    Sides (Agreed Expr.WellFormed) sim.error (inner.template a) (inner'.template b)

variable {sim : Simulation} {pre : Token → Prop} {inner inner' : Inner}

/-! ## Lists and functions -/

theorem runs_sequence (inners : sim.Inners inner inner') :
    sim.RunsAt pre (Agreed Expr.WellFormed) (sequence inner) (sequence inner') := by
  refine (runs_separated (inners.expr 0)).with fun members holds => ?_
  obtain ⟨some, each⟩ := holds
  match members, some, each with
  | [expr], _, each => exact runs_pure ⟨rfl, each expr (List.mem_singleton_self expr)⟩
  | first :: second :: rest, _, each =>
    have two : 2 ≤ (first :: second :: rest).length := by simp
    exact runs_pure ⟨rfl, two, (everyExpr_iff _).mpr each⟩

theorem runs_stmtList (inners : sim.Inners inner inner') :
    sim.RunsAt pre (Agreed (everyStmt Node.WellFormed)) (stmtList inner) (stmtList inner') := by
  have round : ∀ stmts : List Stmt, (∀ stmt ∈ stmts, stmt.WellFormed) →
      sim.Runs (Agreed fun found => (∀ stmt ∈ found.value, stmt.WellFormed) ∧
        ∀ stmt ∈ found.value, stmt.WellFormed) (stmtStep inner stmts) (stmtStep inner' stmts) := by
    intro stmts kept
    refine runs_peekKind fun kind => ?_
    split
    · refine inners.stmt.at.with fun stmt holds => ?_
      have all := List.forall_mem_cons.mpr ⟨holds, kept⟩
      exact runs_pure ⟨rfl, all, all⟩
    · exact runs_pure ⟨rfl, kept, kept⟩
  have looped := runs_loop (∀ stmt ∈ ·, Stmt.WellFormed stmt) (∀ stmt ∈ ·, Stmt.WellFormed stmt)
    round (List.forall_mem_nil _)
  refine looped.at.with fun stmts holds => runs_pure ⟨rfl, (everyStmt_iff _).mpr ?_⟩
  simpa using holds

theorem runs_block (inners : sim.Inners inner inner') :
    sim.RunsAt pre (Agreed (everyStmt Node.WellFormed)) (block inner) (block inner') := by
  refine (runs_expect _).andThen ?_
  refine (runs_withAllowIn true (runs_stmtList inners)).with fun body holds => ?_
  exact (runs_expect _).andThen (runs_pure ⟨rfl, holds⟩)

theorem runs_params : sim.RunsAt pre (Agreed fun _ => True) params params := by
  refine (runs_expect _).andThen ((runs_eat _).with fun closed _ => ?_)
  split
  · exact runs_pure ⟨rfl, trivial⟩
  · refine (runs_separated runs_expectIdentifier).with fun names _ => ?_
    exact (runs_expect _).andThen (runs_pure ⟨rfl, trivial⟩)

theorem runs_functionRest (inners : sim.Inners inner inner') (name : Option String)
    (isGenerator : Bool) :
    sim.RunsAt pre (Agreed fun definition => definition.name = name ∧
        definition.Every Node.WellFormed)
      (functionRest inner name isGenerator) (functionRest inner' name isGenerator) := by
  refine runs_params.with fun names _ => (runs_block inners).with fun body holds => ?_
  exact runs_pure ⟨rfl, rfl, holds⟩

/-- A function that needs a name has one. -/
theorem runs_function (inners : sim.Inners inner inner') (needsName : Bool) :
    sim.RunsAt pre (Agreed fun definition => (needsName = true → definition.name.isSome = true) ∧
        definition.Every Node.WellFormed)
      (function inner needsName) (function inner' needsName) := by
  have named : sim.Runs (Agreed fun name : Option String => needsName = true → name.isSome = true)
      (functionName needsName) (functionName needsName) := by
    refine runs_peekKind fun kind => ?_
    split
    · exact runs_expectIdentifier.with fun name _ => runs_pure ⟨rfl, fun _ => rfl⟩
    · next not =>
      refine runs_pure ⟨rfl, fun needs => ?_⟩
      simp [needs] at not
  refine (runs_expect _).andThen ((runs_eat _).with fun isGenerator _ => ?_)
  refine named.with fun name has => ?_
  refine (runs_functionRest inners name isGenerator).weaken ?_
  rintro definition _ ⟨rfl, rfl, holds⟩
  exact ⟨rfl, has, holds⟩

/-! ## Calls and accesses -/

theorem runs_argument (inners : sim.Inners inner inner') :
    sim.RunsAt pre (Agreed fun argument => argument.expr.WellFormed) (argument inner)
      (argument inner') :=
  (runs_eat _).with fun _ _ => (inners.expr 0).with fun _ holds => runs_pure ⟨rfl, holds⟩

theorem runs_arguments (inners : sim.Inners inner inner') :
    sim.RunsAt pre (Agreed (everyArgument Node.WellFormed)) (arguments inner)
      (arguments inner') := by
  refine (runs_expect _).andThen (runs_withAllowIn true ((runs_eat _).with fun closed _ => ?_))
  split
  · exact runs_pure ⟨rfl, trivial⟩
  · refine (runs_separated (runs_argument inners)).with fun items holds => ?_
    exact (runs_expect _).andThen (runs_pure ⟨rfl, (everyArgument_iff _).mpr holds.2⟩)

theorem runs_indexKey (inners : sim.Inners inner inner') :
    sim.RunsAt pre (Agreed Expr.WellFormed) (indexKey inner) (indexKey inner') := by
  refine (runs_expect _).andThen ?_
  refine (runs_withAllowIn true (runs_sequence inners)).with fun key holds => ?_
  exact (runs_expect _).andThen (runs_pure ⟨rfl, holds⟩)

theorem runs_memberName : sim.RunsAt pre (Agreed fun _ => True) memberName memberName := by
  refine runs_peekKind fun kind => ?_
  split
  · exact runs_advance.bind fun _ _ token => runs_pure ⟨sim.lexeme token.1, trivial⟩
  · exact runs_unexpected rfl

theorem runs_optionalAccess (inners : sim.Inners inner inner') :
    sim.RunsAt pre (Agreed (Access.Every Node.WellFormed)) (optionalAccess inner)
      (optionalAccess inner') := by
  refine runs_peekKind fun kind => ?_
  split
  · exact (runs_arguments inners).with fun _ holds => runs_pure ⟨rfl, holds⟩
  · exact (runs_indexKey inners).with fun _ holds => runs_pure ⟨rfl, holds⟩
  · exact runs_memberName.with fun _ _ => runs_pure ⟨rfl, trivial⟩

/-- An access is read only at a token that begins one. -/
theorem runs_access (inners : sim.Inners inner inner') {object : Expr} (known : object.WellFormed)
    (begins : ∀ token, pre token → token.kind.suffix = .access) :
    sim.RunsAt pre (Agreed Expr.WellFormed) (access inner object) (access inner' object) := by
  refine runs_peekKind fun kind => ?_
  split
  · exact (runs_arguments inners).with fun _ holds => runs_pure ⟨rfl, trivial, known, holds⟩
  · exact runs_advance.andThen (runs_memberName.with fun _ _ => runs_pure ⟨rfl, trivial, known⟩)
  · exact (runs_indexKey inners).with fun _ holds => runs_pure ⟨rfl, trivial, known, holds⟩
  · exact runs_advance.andThen
      ((runs_optionalAccess inners).with fun _ holds => runs_pure ⟨rfl, trivial, known, holds⟩)
  · next call member index optional =>
    intro s t states holds
    have one := Kind.eq_of_suffix_access (begins s.current holds.2)
    rw [holds.1] at one
    rcases one with is | is | is | is
    exacts [(call is).elim, (member is).elim, (index is).elim, (optional is).elim]

/-! ## Operands -/

theorem runs_checkTarget (expr : Expr) :
    sim.RunsAt pre (Agreed fun _ => expr.isTarget = true) (checkTarget expr)
      (checkTarget expr) := by
  unfold checkTarget
  split
  · next target => exact runs_pure ⟨rfl, target⟩
  · exact runs_unexpected rfl

/-- Every number of a scanned text can be read. -/
theorem sides_numberOf {a b : Token} (token : sim.token a b) (isNumber : a.kind = .number) :
    Sides (Agreed fun _ => True) sim.error (numberOf a) (numberOf b) := by
  obtain ⟨decimal, read⟩ := Option.isSome_iff_exists.mp (sim.number token isNumber)
  unfold numberOf
  rw [← sim.lexeme token, read]
  exact .ok ⟨rfl, trivial⟩

theorem runs_element (inners : sim.Inners inner inner') :
    sim.RunsAt pre (Agreed (Element.Every Node.WellFormed)) (element inner) (element inner') := by
  refine runs_peekKind fun kind => ?_
  split
  · exact runs_pure ⟨rfl, trivial⟩
  · refine (runs_eat _).with fun spread _ => ?_
    split <;> exact (inners.expr 0).with fun _ holds => runs_pure ⟨rfl, holds⟩

theorem runs_arrayLiteral (inners : sim.Inners inner inner') :
    sim.RunsAt pre (Agreed Expr.WellFormed) (arrayLiteral inner) (arrayLiteral inner') := by
  refine (runs_expect _).andThen ?_
  refine (runs_withAllowIn true (runs_closedList _ (runs_element inners))).with fun _ holds => ?_
  exact runs_pure ⟨rfl, trivial, (everyElement_iff _).mpr holds⟩

theorem runs_propertyName (inners : sim.Inners inner inner') :
    sim.RunsAt pre (Agreed (PropertyName.Every Node.WellFormed)) (propertyName inner)
      (propertyName inner') := by
  refine runs_peek fun a b token _ => ?_
  rw [← sim.kind token, ← sim.lexeme token]
  split
  · exact runs_advance.andThen (runs_pure ⟨rfl, trivial⟩)
  · next isNumber =>
    refine runs_advance.andThen ((runs_ofExcept (sides_numberOf token isNumber)).with fun _ _ => ?_)
    exact runs_pure ⟨rfl, trivial⟩
  · refine runs_advance.andThen ((inners.expr 0).with fun expr holds => ?_)
    exact (runs_expect _).andThen (runs_pure ⟨rfl, holds⟩)
  · split
    · exact runs_advance.andThen (runs_pure ⟨rfl, trivial⟩)
    · exact runs_unexpected rfl

theorem runs_propertyRest (inners : sim.Inners inner inner') (shorthand : Option String)
    {name : PropertyName} (known : name.Every Node.WellFormed) :
    sim.RunsAt pre (Agreed (Property.Every Node.WellFormed)) (propertyRest inner shorthand name)
      (propertyRest inner' shorthand name) := by
  refine runs_peekKind fun kind => ?_
  split
  · exact runs_advance.andThen
      ((inners.expr 0).with fun _ holds => runs_pure ⟨rfl, known, holds⟩)
  · exact (runs_functionRest inners _ false).with fun _ holds => runs_pure ⟨rfl, known, holds.2⟩
  · exact runs_pure ⟨rfl, trivial⟩
  · exact runs_pure ⟨rfl, trivial⟩
  · exact runs_unexpected rfl

theorem runs_property (inners : sim.Inners inner inner') :
    sim.RunsAt pre (Agreed (Property.Every Node.WellFormed)) (property inner)
      (property inner') := by
  refine (runs_eat _).with fun spread _ => ?_
  split
  · exact (inners.expr 0).with fun _ holds => runs_pure ⟨rfl, holds⟩
  · refine runs_peek fun a b token _ => ?_
    rw [← sim.kind token, ← sim.lexeme token]
    exact (runs_propertyName inners).with fun name holds => runs_propertyRest inners _ holds

theorem runs_objectLiteral (inners : sim.Inners inner inner') :
    sim.RunsAt pre (Agreed Expr.WellFormed) (objectLiteral inner) (objectLiteral inner') := by
  refine (runs_expect _).andThen ?_
  refine (runs_withAllowIn true (runs_closedList _ (runs_property inners))).with fun _ holds => ?_
  exact runs_pure ⟨rfl, trivial, (everyProperty_iff _).mpr holds⟩

theorem runs_updateBefore (inners : sim.Inners inner inner') (op : UpdateOp) :
    sim.RunsAt pre (Agreed Expr.WellFormed) (updateBefore inner op) (updateBefore inner' op) := by
  refine runs_advance.andThen ((inners.expr operandPower).with fun target holds => ?_)
  exact (runs_checkTarget target).with fun _ isTarget => runs_pure ⟨rfl, isTarget, holds⟩

theorem runs_unaryOperand (inners : sim.Inners inner inner') (kind : Kind) :
    sim.RunsAt pre (Agreed Expr.WellFormed) (unaryOperand inner kind)
      (unaryOperand inner' kind) := by
  unfold unaryOperand
  split
  · exact runs_advance.andThen
      ((inners.expr operandPower).with fun _ holds => runs_pure ⟨rfl, trivial, holds⟩)
  · exact runs_unexpected rfl

theorem runs_parenthesized (inners : sim.Inners inner inner') :
    sim.RunsAt pre (Agreed Expr.WellFormed) (parenthesized inner) (parenthesized inner') := by
  refine runs_advance.andThen ?_
  refine (runs_withAllowIn true (runs_sequence inners)).with fun _ holds => ?_
  exact (runs_expect _).andThen (runs_pure ⟨rfl, trivial, holds⟩)

/-- A literal is read only at a token that is one. -/
theorem runs_literal (begins : ∀ token, pre token → token.kind = .number ∨ token.kind = .string ∨
      token.kind = .boolean ∨ token.kind = .null) :
    sim.RunsAt pre (Agreed Expr.WellFormed) literal literal := by
  refine runs_advance.bind fun a b token => ?_
  obtain ⟨token, holds⟩ := token
  rw [← sim.kind token, ← sim.lexeme token]
  split
  · next isNumber =>
    exact (runs_ofExcept (sides_numberOf token isNumber)).with fun _ _ => runs_pure ⟨rfl, trivial⟩
  · exact runs_pure ⟨rfl, trivial⟩
  · exact runs_pure ⟨rfl, trivial⟩
  · exact runs_pure ⟨rfl, trivial⟩
  · next number string boolean null =>
    rcases begins a holds with is | is | is | is
    exacts [(number is).elim, (string is).elim, (boolean is).elim, (null is).elim]

theorem runs_operand (inners : sim.Inners inner inner') :
    sim.RunsAt pre (Agreed Expr.WellFormed) (operand inner) (operand inner') := by
  refine runs_peek fun a b token _ => ?_
  rw [← sim.kind token, ← sim.lexeme token]
  split
  · next is => exact runs_literal fun _ same => .inl (same ▸ is)
  · next is => exact runs_literal fun _ same => .inr (.inl (same ▸ is))
  · next is => exact runs_literal fun _ same => .inr (.inr (.inl (same ▸ is)))
  · next is => exact runs_literal fun _ same => .inr (.inr (.inr (same ▸ is)))
  · next is => exact runs_advance.andThen (runs_ofExcept (inners.template token is))
  · exact runs_advance.andThen (runs_pure ⟨rfl, trivial⟩)
  · exact runs_advance.andThen (runs_pure ⟨rfl, trivial⟩)
  · exact runs_parenthesized inners
  · exact runs_arrayLiteral inners
  · exact runs_objectLiteral inners
  · exact (runs_function inners false).with fun _ holds => runs_pure ⟨rfl, trivial, holds.2⟩
  · exact inners.newExpr.at
  · exact runs_updateBefore inners .increment
  · exact runs_updateBefore inners .decrement
  · exact runs_throw (sim.unimplemented _)
  · exact runs_throw (sim.unimplemented _)
  · exact runs_unaryOperand inners a.kind

/-! ## New -/

theorem runs_newAccess (inners : sim.Inners inner inner') {callee : Expr}
    (known : callee.WellFormed) :
    sim.RunsAt pre (Agreed fun found => found.value.WellFormed ∧ found.value.WellFormed)
      (newAccess inner callee) (newAccess inner' callee) := by
  refine runs_peekKind fun kind => ?_
  split
  · refine (runs_access inners known fun token is => ?_).with fun _ holds =>
      runs_pure ⟨rfl, holds, holds⟩
    rw [is.1]
    rfl
  · refine (runs_access inners known fun token is => ?_).with fun _ holds =>
      runs_pure ⟨rfl, holds, holds⟩
    rw [is.1]
    rfl
  · exact runs_pure ⟨rfl, known, known⟩

theorem runs_newArguments (inners : sim.Inners inner inner') :
    sim.RunsAt pre (Agreed (everyOptionalArgument Node.WellFormed)) (newArguments inner)
      (newArguments inner') := by
  refine runs_peekKind fun kind => ?_
  split
  · exact (runs_arguments inners).with fun _ holds => runs_pure ⟨rfl, holds⟩
  · exact runs_pure ⟨rfl, trivial⟩

theorem runs_newBody (inners : sim.Inners inner inner') :
    sim.RunsAt pre (Agreed Expr.WellFormed) (newBody inner) (newBody inner') := by
  have rest : ∀ first : Expr, first.WellFormed → sim.Runs (Agreed Expr.WellFormed)
      (do
        let callee ← loop (newAccess inner) first
        return .new callee (← newArguments inner))
      (do
        let callee ← loop (newAccess inner') first
        return .new callee (← newArguments inner')) := by
    intro first known
    refine (runs_loop Expr.WellFormed Expr.WellFormed (fun _ kept => runs_newAccess inners kept)
      known).with fun callee holds => ?_
    exact (runs_newArguments inners).with fun _ given => runs_pure ⟨rfl, trivial, holds, given⟩
  refine (runs_expect _).andThen (runs_peekKind fun kind => ?_)
  dsimp only
  split
  · exact inners.newExpr.at.with rest
  · exact (runs_operand inners).with rest

/-! ## Operations -/

theorem runs_conditional (inners : sim.Inners inner inner') {test : Expr}
    (known : test.WellFormed) :
    sim.RunsAt pre (Agreed Expr.WellFormed) (conditional inner test) (conditional inner' test) := by
  refine runs_advance.andThen ?_
  refine (runs_withAllowIn true (inners.expr 0)).with fun consequent first => ?_
  refine (runs_expect _).andThen ((inners.expr alternatePower).with fun alternate second => ?_)
  exact runs_pure ⟨rfl, trivial, known, first, second⟩

/-- An operation is read only at a token that stands for one. -/
theorem runs_operate (inners : sim.Inners inner inner') (powers : Nat × Nat) {left : Expr}
    (known : left.WellFormed)
    (begins : ∀ token, pre token → ∃ operation, token.kind.operation? = some operation) :
    sim.RunsAt pre (Agreed Expr.WellFormed) (operate inner powers left)
      (operate inner' powers left) := by
  refine runs_peek fun a b token holds => ?_
  obtain ⟨operation, is⟩ := begins a holds
  have assigns := (Kind.powers?_of_operation is).2
  -- What follows the check of the target is the same for all operations.
  have rest {pre : Token → Prop} (target : operation.assigns = true → left.isTarget = true) :
      sim.RunsAt pre (Agreed Expr.WellFormed)
        (do
          let _ ← advance
          let right ← inner.expr powers.2
          return operation.apply left right)
        (do
          let _ ← advance
          let right ← inner'.expr powers.2
          return operation.apply left right) := by
    refine runs_advance.andThen ((inners.expr powers.2).with fun right second => ?_)
    refine runs_pure ⟨rfl, ?_⟩
    cases operation with
    | assign => exact ⟨target rfl, known, second⟩
    | assignWith op => exact ⟨⟨target rfl, Kind.decides_of_operation is⟩, known, second⟩
    | binary op => exact ⟨trivial, known, second⟩
  rw [← sim.kind token, is, assigns]
  dsimp only
  split
  · exact (runs_checkTarget left).with fun _ target => rest fun _ => target
  · next plain => exact rest fun assigned => (plain assigned).elim

theorem runs_suffix (inners : sim.Inners inner inner') (least : Nat) {left : Expr}
    (known : left.WellFormed) :
    sim.RunsAt pre (Agreed fun found => found.value.WellFormed ∧ found.value.WellFormed)
      (suffix inner least left) (suffix inner' least left) := by
  have stops {pre : Token → Prop} :
      sim.RunsAt pre (Agreed fun found => found.value.WellFormed ∧ found.value.WellFormed)
        (pure (Step.done left)) (pure (Step.done left)) :=
    runs_pure ⟨rfl, known, known⟩
  have goes {pre : Token → Prop} {x y : Parse Expr}
      (runs : sim.RunsAt pre (Agreed Expr.WellFormed) x y) :
      sim.RunsAt pre (Agreed fun found => found.value.WellFormed ∧ found.value.WellFormed)
        (do return Step.again (← x)) (do return Step.again (← y)) :=
    runs.with fun _ holds => runs_pure ⟨rfl, holds, holds⟩
  refine runs_peek fun a b token _ => ?_
  rw [← sim.kind token, ← sim.newlineBefore token]
  split
  · next is =>
    split
    · exact stops
    · exact goes (runs_access inners known fun _ same => same ▸ is)
  · next op is =>
    split
    · exact stops
    · refine (runs_checkTarget left).with fun _ target => runs_advance.andThen ?_
      have made : Expr.WellFormed (.update op .after left) := ⟨target, known⟩
      exact runs_pure ⟨rfl, made, made⟩
  · split
    · exact stops
    · exact goes (runs_conditional inners known)
  · next powers is =>
    refine runs_allowsIn fun allowed => ?_
    split
    · exact stops
    · exact goes (runs_operate inners powers known
        fun _ same => same ▸ Kind.operation?_of_suffix is)
  · exact stops

theorem runs_exprBody (inners : sim.Inners inner inner') (least : Nat) :
    sim.RunsAt pre (Agreed Expr.WellFormed) (exprBody inner least) (exprBody inner' least) :=
  (runs_operand inners).with fun _ known =>
    runs_loop Expr.WellFormed Expr.WellFormed (fun _ kept => runs_suffix inners least kept) known

end Simulation
end Grammar
end Scriptlet
