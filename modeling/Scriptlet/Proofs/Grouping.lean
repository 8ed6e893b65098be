import Scriptlet.Grammar.Operation
import Scriptlet.Proofs.Nodes

/-!
# Binding powers in trees

A tree can be written without further parentheses if each operand binds strongly enough
for its place. Two questions decide this:

* `Expr.fits`: is the operator at the top strong enough for what stands before it;
* `Expr.yields`: does the last operand leave a following operator to the whole.

`Grouped` asks them at every node. It looks one level deep only; `releases_of_yields`
carries the second question down to the end of the text of an expression.
-/

namespace Scriptlet

/-- Whether the operator at the top has at least this left power. Only operators with an
operand on their left can be too weak. -/
def Expr.fits (least : Nat) : Expr → Bool
  | .binary op _ _ => least ≤ op.powers.1
  | .conditional _ _ _ => least ≤ conditionalPower
  | .assign _ _ | .assignWith _ _ _ => least ≤ assignmentPowers.1
  | _ => true

/-- Whether a suffix of this left power is applied to the whole expression and not to its
last operand: the last operand was asked for with a greater power. -/
def Expr.yields (power : Nat) : Expr → Bool
  | .unary _ _ | .update _ .before _ => power < operandPower
  | .binary op _ _ => power < op.powers.2
  | .conditional _ _ _ => power < alternatePower
  | .assign _ _ | .assignWith _ _ _ => power < assignmentPowers.2
  | _ => true

/-- Whether the operands of an expression fit their places. -/
def Expr.bindsOperands : Expr → Bool
  | .unary _ operand => operand.fits operandPower
  | .update _ _ target => target.isTarget
  | .binary op left right => left.yields op.powers.1 && right.fits op.powers.2
  | .conditional test _ alternate =>
    test.yields conditionalPower && alternate.fits alternatePower
  | .assign target value | .assignWith _ target value =>
    target.isTarget && value.fits assignmentPowers.2
  | .call owner _ | .member owner _ | .index owner _ | .optional owner _ =>
    owner.yields accessPower
  | _ => true

/-- The operands fit their places at this node. -/
def Node.BindsOperands : Node → Prop
  | .expr tree => tree.bindsOperands
  | .stmt _ => True

/-- The operands fit their places at every node, so that the tree respects the binding
powers. -/
def Expr.Grouped (expr : Expr) : Prop :=
  expr.Every Node.BindsOperands

/-! ## Powers of suffixes -/

/-- The left power of what a token does after an operand. -/
def Suffix.power? : Suffix → Option Nat
  | .access => some accessPower
  | .update _ => some updatePower
  | .conditional => some conditionalPower
  | .operation powers => some powers.1
  | .none => Option.none

/-- The left power of a token after an operand, if it continues an expression. -/
def Token.power? (token : Token) : Option Nat :=
  token.kind.suffix.power?

/-- No suffix has the right power of `**`, the only operator whose right power is less
than its left one. -/
theorem Token.power?_ne {token : Token} {power : Nat} (found : token.power? = some power) :
    0 < power ∧ power ≠ 31 := by
  unfold Token.power? at found
  cases kindEq : token.kind with
  | keyword word => rw [kindEq] at found; cases word <;> cases found <;> decide
  | symbol mark => rw [kindEq] at found; cases mark <;> cases found <;> decide
  | _ => rw [kindEq] at found; cases found

theorem BinaryOp.right_le (op : BinaryOp) : op.powers.2 ≤ op.powers.1 + 1 := by
  cases op <;> decide

theorem BinaryOp.lt_right {op : BinaryOp} {power : Nat} (other : power ≠ 31)
    (less : power < op.powers.1) : power < op.powers.2 := by
  cases op <;> simp only [BinaryOp.powers] at less ⊢ <;> omega

theorem BinaryOp.powers_bounds (op : BinaryOp) :
    5 ≤ op.powers.1 ∧ op.powers.1 ≤ 32 ∧ 6 ≤ op.powers.2 ∧ op.powers.2 ≤ 32 := by
  cases op <;> decide

theorem Operation.right_le_operandPower (operation : Operation) :
    operation.powers.2 ≤ operandPower := by
  cases operation with
  | assign => decide
  | assignWith op => exact (by decide : assignmentPowers.2 ≤ operandPower)
  | binary op => exact Nat.le_trans op.powers_bounds.2.2.2 (by decide)

/-! ## The end of an expression -/

/-- Whether every operand that reaches the end of the expression leaves a following suffix
of this left power alone. -/
def Expr.releases (power : Nat) : Expr → Bool
  | .unary _ operand => power < operandPower && operand.releases power
  | .update _ .before target => power < operandPower && target.releases power
  | .binary op _ right => power < op.powers.2 && right.releases power
  | .conditional _ _ alternate => power < alternatePower && alternate.releases power
  | .assign _ value | .assignWith _ _ value =>
    power < assignmentPowers.2 && value.releases power
  | _ => true

theorem Operation.fits_apply (operation : Operation) (left right : Expr) (least : Nat) :
    (operation.apply left right).fits least = decide (least ≤ operation.powers.1) := by
  cases operation <;> rfl

theorem Operation.releases_apply (operation : Operation) (left right : Expr) (power : Nat) :
    (operation.apply left right).releases power =
      (decide (power < operation.powers.2) && right.releases power) := by
  cases operation <;> rfl

/-- An expression that releases a suffix yields to it. -/
theorem Expr.yields_of_releases {power : Nat} {expr : Expr}
    (released : expr.releases power) : expr.yields power := by
  unfold Expr.yields
  split <;> simp_all [Expr.releases]

theorem Expr.fits_of_isTarget {least : Nat} {expr : Expr} (target : expr.isTarget) :
    expr.fits least := by
  unfold Expr.fits
  split <;> simp_all [Expr.isTarget]

theorem Expr.releases_of_isTarget {power : Nat} {expr : Expr} (target : expr.isTarget) :
    expr.releases power := by
  unfold Expr.releases
  split <;> simp_all [Expr.isTarget]

/-- An expression that yields to a suffix fits wherever the suffix does. -/
theorem Expr.fits_of_yields {power least : Nat} {expr : Expr} (weaker : least ≤ power)
    (yielded : expr.yields power) : expr.fits least := by
  cases expr with
  | binary op left right =>
    have less : power < op.powers.2 := of_decide_eq_true yielded
    have := op.right_le
    exact decide_eq_true (by omega)
  | conditional _ _ _ | assign _ _ | assignWith _ _ _ =>
    have less : power < 1 := of_decide_eq_true yielded
    obtain rfl : least = 0 := by omega
    rfl
  | _ => rfl

/-- An operand that fits a place yields to every suffix weaker than that place. The places
of operands have a power of at most one, for the last operand of conditionals and
assignments, or more than a conditional. -/
theorem Expr.yields_of_fits {power least : Nat} {expr : Expr} (other : power ≠ 31)
    (place : least ≤ 1 ∨ 5 ≤ least ∧ least ≤ 33) (weaker : power < least)
    (fitted : expr.fits least) : expr.yields power := by
  cases expr with
  | binary op left right =>
    have least_le : least ≤ op.powers.1 := of_decide_eq_true fitted
    exact decide_eq_true (BinaryOp.lt_right other (by omega))
  | conditional _ _ _ =>
    have least_le : least ≤ 4 := of_decide_eq_true fitted
    obtain rfl : power = 0 := by omega
    rfl
  | assign _ _ | assignWith _ _ _ =>
    have least_le : least ≤ 2 := of_decide_eq_true fitted
    obtain rfl : power = 0 := by omega
    rfl
  | unary _ _ => exact decide_eq_true (show power < 33 by omega)
  | update _ side _ =>
    cases side with
    | before => exact decide_eq_true (show power < 33 by omega)
    | after => rfl
  | _ => rfl

/-- The last operand of a tree releases a suffix that is too weak for its place. -/
theorem Expr.releases_last {power place : Nat} {last : Expr} (other : power ≠ 31)
    (bounds : place ≤ 1 ∨ 5 ≤ place ∧ place ≤ 33) (fitted : last.fits place)
    (weaker : decide (power < place) = true) (ends : last.yields power → last.releases power) :
    (decide (power < place) && last.releases power) = true := by
  have yielded := Expr.yields_of_fits other bounds (of_decide_eq_true weaker) fitted
  rw [weaker, ends yielded]
  rfl

/-- In a grouped tree the last operands all release a suffix that the whole yields to. -/
theorem Expr.releases_of_yields {power : Nat} (other : power ≠ 31) :
    ∀ expr : Expr, expr.Grouped → expr.yields power → expr.releases power
  | .unary _ operand, grouped, yielded =>
    Expr.releases_last other (.inr (by decide)) grouped.1 yielded
      (Expr.releases_of_yields other operand grouped.2)
  | .update _ .before target, grouped, yielded => by
    have released : target.releases power := Expr.releases_of_isTarget grouped.1
    exact (Bool.and_eq_true _ _).mpr ⟨yielded, released⟩
  | .binary op _ right, grouped, yielded => by
    obtain ⟨-, fitted⟩ := (Bool.and_eq_true _ _).mp grouped.1
    have bounds := op.powers_bounds
    exact Expr.releases_last other (.inr (by omega)) fitted yielded
      (Expr.releases_of_yields other right grouped.2.2)
  | .conditional _ _ alternate, grouped, yielded => by
    obtain ⟨-, fitted⟩ := (Bool.and_eq_true _ _).mp grouped.1
    exact Expr.releases_last other (.inl (by decide)) fitted yielded
      (Expr.releases_of_yields other alternate grouped.2.2.2)
  | .assign _ value, grouped, yielded | .assignWith _ _ value, grouped, yielded => by
    obtain ⟨-, fitted⟩ := (Bool.and_eq_true _ _).mp grouped.1
    exact Expr.releases_last other (.inl (by decide)) fitted yielded
      (Expr.releases_of_yields other value grouped.2.2)
  | .number _, _, _ | .string _, _, _ | .boolean _, _, _ | .null, _, _
  | .template _ _, _, _ | .identifier _, _, _ | .this, _, _ | .array _, _, _
  | .object _, _, _ | .function _, _, _ | .parenthesized _, _, _ | .sequence _, _, _
  | .new _ _, _, _ | .update _ .after _, _, _ | .call _ _, _, _ | .member _ _, _, _
  | .index _ _, _, _ | .optional _ _, _, _ => rfl

end Scriptlet
