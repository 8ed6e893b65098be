import Scriptlet.Grammar.Access
import Scriptlet.Number.Format

/-!
# Operands

The expressions that operators are applied to: literals, names, parentheses, functions,
`new` and operators in front of their operand.
-/

namespace Scriptlet
namespace Grammar

/-- Fails unless the expression can be assigned to. The error is at the current token. -/
def checkTarget (expr : Expr) : Parse Unit :=
  if expr.isTarget then pure () else unexpected .assignmentTarget

/-- The number that a token is written as. -/
def numberOf (token : Token) : Except Error Float :=
  match Number.Decimal.read? token.lexeme.toList with
  | some decimal => .ok (Number.ofMagnitude false decimal.nearestBits)
  | none => .error (.lexical .invalidNumber token.start)

/-! ## Array and object literals -/

/-- Reads an element of an array literal. A comma right away leaves a hole. -/
def element (inner : Inner) : Parse Element := do
  if (← peekKind) = .symbol .comma then
    return .hole
  else if ← eat (.symbol .ellipsis) then
    return .spread (← inner.expr 0)
  else
    return .item (← inner.expr 0)

/-- Reads an array literal. -/
def arrayLiteral (inner : Inner) : Parse Expr := do
  let _ ← expect (.symbol .openBracket)
  let elements ← withAllowIn true (closedList .closeBracket (element inner))
  return .array elements

/-- Reads the name of a property in an object literal. -/
def propertyName (inner : Inner) : Parse PropertyName := do
  let token ← peek
  match token.kind with
  | .string =>
    let _ ← advance
    return .string token.lexeme
  | .number =>
    let _ ← advance
    return .number (← ofExcept (numberOf token))
  | .symbol .openBracket =>
    let _ ← advance
    let expr ← inner.expr 0
    let _ ← expect (.symbol .closeBracket)
    return .computed expr
  | kind =>
    if kind.isWord then
      let _ ← advance
      return .identifier token.lexeme
    else
      unexpected .propertyName

/-- The name that a method gets from its property. -/
def methodName : PropertyName → Option String
  | .identifier name | .string name => some name
  | .number _ | .computed _ => none

/-- Reads what follows the name of a property. Only an identifier, `shorthand`, may stand
by itself. -/
def propertyRest (inner : Inner) (shorthand : Option String) (name : PropertyName) :
    Parse Property := do
  match (← peekKind), shorthand with
  | .symbol .colon, _ =>
    let _ ← advance
    return .value name (← inner.expr 0)
  | .symbol .openParen, _ =>
    return .method name (← functionRest inner (methodName name) false)
  | .symbol .comma, some identifier => return .shorthand identifier
  | .symbol .closeBrace, some identifier => return .shorthand identifier
  | _, _ => unexpected (.token (.symbol .colon))

/-- Reads an entry of an object literal. -/
def property (inner : Inner) : Parse Property := do
  if ← eat (.symbol .ellipsis) then
    return .spread (← inner.expr 0)
  else
    let token ← peek
    let name ← propertyName inner
    propertyRest inner (if token.kind = .identifier then some token.lexeme else none) name

/-- Reads an object literal. -/
def objectLiteral (inner : Inner) : Parse Expr := do
  let _ ← expect (.symbol .openBrace)
  let properties ← withAllowIn true (closedList .closeBrace (property inner))
  return .object properties

/-! ## All operands -/

/-- Reads an update with its operator in front. -/
def updateBefore (inner : Inner) (op : UpdateOp) : Parse Expr := do
  let _ ← advance
  let target ← inner.expr operandPower
  checkTarget target
  return .update op .before target

/-- Reads an operator with its operand, if the token is one. -/
def unaryOperand (inner : Inner) (kind : Kind) : Parse Expr := do
  match kind.unary? with
  | some op =>
    let _ ← advance
    return .unary op (← inner.expr operandPower)
  | none => unexpected .expression

/-- Reads an expression in parentheses. -/
def parenthesized (inner : Inner) : Parse Expr := do
  let _ ← advance
  let expr ← withAllowIn true (sequence inner)
  let _ ← expect (.symbol .closeParen)
  return .parenthesized expr

/-- Reads a number, text, truth value or null. -/
def literal : Parse Expr := do
  let token ← advance
  match token.kind with
  | .number => return .number (← ofExcept (numberOf token))
  | .string => return .string token.lexeme
  | .boolean => return .boolean (token.lexeme = "true")
  | .null => return .null
  | _ => throw (.unexpected .literal token.description token.start)

/-- Reads an operand. -/
def operand (inner : Inner) : Parse Expr := do
  let token ← peek
  match token.kind with
  | .number | .string | .boolean | .null => literal
  | .template =>
    let _ ← advance
    ofExcept (inner.template token)
  | .identifier =>
    let _ ← advance
    return .identifier token.lexeme
  | .keyword .this =>
    let _ ← advance
    return .this
  | .symbol .openParen => parenthesized inner
  | .symbol .openBracket => arrayLiteral inner
  | .symbol .openBrace => objectLiteral inner
  | .keyword .function => return .function (← function inner false)
  | .keyword .new => inner.newExpr
  | .symbol .plusPlus => updateBefore inner .increment
  | .symbol .minusMinus => updateBefore inner .decrement
  | .symbol .slash => throw (.unimplemented .regularExpressions)
  | .symbol .slashEquals => throw (.unimplemented .regularExpressions)
  | kind => unaryOperand inner kind

/-! ## New -/

/-- Reads an access to a property that belongs to the callee of `new`. -/
def newAccess (inner : Inner) (callee : Expr) : Parse (Step Expr) := do
  match ← peekKind with
  | .symbol .dot | .symbol .openBracket => return .again (← access inner callee)
  | _ => return .done callee

/-- Reads the argument list of `new`, if there is one. -/
def newArguments (inner : Inner) : Parse (Option (List Argument)) := do
  if (← peekKind) = .symbol .openParen then return some (← arguments inner) else return none

/-- Reads an expression from the word `new` on. Accesses to properties belong to the
callee, the first argument list to `new`. -/
def newBody (inner : Inner) : Parse Expr := do
  let _ ← expect (.keyword .new)
  let first ← if (← peekKind) = .keyword .new then inner.newExpr else operand inner
  let callee ← loop (newAccess inner) first
  return .new callee (← newArguments inner)

end Grammar
end Scriptlet
