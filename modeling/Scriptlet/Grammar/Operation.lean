import Scriptlet.Grammar.Operand

/-!
# Operations

An expression is an operand with suffixes: accesses, updates, conditionals and binary
operations. A suffix is taken if its power is at least the one that is asked for.
-/

namespace Scriptlet

/-- What a token does after an operand. -/
inductive Suffix where
  | access
  | update (op : UpdateOp)
  | conditional
  | operation (powers : Nat × Nat)
  | none
  deriving Repr, DecidableEq

/-- What a token does after an operand. -/
def Kind.suffix (kind : Kind) : Suffix :=
  match kind with
  | .symbol .openParen | .symbol .dot | .symbol .openBracket | .symbol .questionDot =>
    .access
  | .symbol .plusPlus => .update .increment
  | .symbol .minusMinus => .update .decrement
  | .symbol .question => .conditional
  | kind =>
    match kind.powers? with
    | some powers => .operation powers
    | none => .none

namespace Grammar

/-- Reads the branches of a conditional. -/
def conditional (inner : Inner) (test : Expr) : Parse Expr := do
  let _ ← advance
  let consequent ← withAllowIn true (inner.expr 0)
  let _ ← expect (.symbol .colon)
  let alternate ← inner.expr alternatePower
  return .conditional test consequent alternate

/-- Reads an operation, whose operator is the current token, and its right operand. -/
def operate (inner : Inner) (powers : Nat × Nat) (left : Expr) : Parse Expr := do
  let token ← peek
  if token.kind.assigns then checkTarget left
  let _ ← advance
  let right ← inner.expr powers.2
  match token.kind.operation? with
  | some operation => return operation.apply left right
  | none => throw (.unexpected .binaryOperator token.description token.start)

/-- Reads a suffix of power `least` or more. An update stands on the line of its
operand. -/
def suffix (inner : Inner) (least : Nat) (left : Expr) : Parse (Step Expr) := do
  let token ← peek
  match token.kind.suffix with
  | .access =>
    if accessPower < least then return .done left
    else return .again (← access inner left)
  | .update op =>
    if updatePower < least || token.newlineBefore then return .done left
    else
      checkTarget left
      let _ ← advance
      return .again (.update op .after left)
  | .conditional =>
    if conditionalPower < least then return .done left
    else return .again (← conditional inner left)
  | .operation powers =>
    if (token.kind = .keyword .in_ && !(← allowsIn)) || powers.1 < least then
      return .done left
    else
      return .again (← operate inner powers left)
  | .none => return .done left

/-- Reads an operand with its suffixes of power `least` or more. -/
def exprBody (inner : Inner) (least : Nat) : Parse Expr := do
  let first ← operand inner
  loop (suffix inner least) first

end Grammar
end Scriptlet
