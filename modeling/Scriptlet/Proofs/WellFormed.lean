import Scriptlet.Grammar.Statement
import Scriptlet.Proofs.Nodes

/-!
# Well-formed trees

What the types of trees leave open and the grammar settles: what is assigned to, which
operators join with an assignment, and which lists and clauses are there at all.
-/

namespace Scriptlet

/-- Whether an operator only decides between its operands or about them: no assignment
joins with it. -/
def BinaryOp.decides : BinaryOp → Bool
  | .logicalOr | .logicalAnd | .equal | .notEqual | .strictEqual | .strictNotEqual
  | .in_ | .instanceof | .lessThan | .lessThanEqual | .greaterThan | .greaterThanEqual => true
  | _ => false

/-- Whether the head of a loop declares at least one variable, if it declares any. -/
def ForHead.Declares : ForHead → Prop
  | .declaration _ declarations => declarations ≠ []
  | .expression _ => True

/-- What the grammar settles of a node. -/
def Node.WellFormed : Node → Prop
  | .expr (.assign target _) | .expr (.update _ _ target) => target.isTarget = true
  | .expr (.assignWith op target _) => target.isTarget = true ∧ op.decides = false
  | .expr (.sequence members) => 2 ≤ members.length
  | .stmt (.variables _ declarations) => declarations ≠ []
  | .stmt (.function definition) => definition.name.isSome = true
  | .stmt (.for_ (some head) _ _ _) => head.Declares
  | .stmt (.forIn head _ _) | .stmt (.forOf _ head _ _) =>
    head.Declares ∧ Grammar.ForHead.isTarget head = true
  | .stmt (.try_ _ handler finalizer) => handler.isSome = true ∨ finalizer.isSome = true
  | _ => True

/-- Whether every node of an expression is well-formed. -/
abbrev Expr.WellFormed (expr : Expr) : Prop :=
  expr.Every Node.WellFormed

/-- Whether every node of a statement is well-formed. -/
abbrev Stmt.WellFormed (stmt : Stmt) : Prop :=
  stmt.Every Node.WellFormed

end Scriptlet
