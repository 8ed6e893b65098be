import Scriptlet.Grammar.Inner

/-!
# Calls and accesses

The suffixes that call a function or reach a property: argument lists, names after a
point, keys in brackets, and each of these after `?.`.
-/

namespace Scriptlet
namespace Grammar

/-- Reads an argument, which may be spread. -/
def argument (inner : Inner) : Parse Argument := do
  let spread ← eat (.symbol .ellipsis)
  let expr ← inner.expr 0
  return ⟨spread, expr⟩

/-- Reads an argument list with its parentheses. -/
def arguments (inner : Inner) : Parse (List Argument) := do
  let _ ← expect (.symbol .openParen)
  withAllowIn true do
    if ← eat (.symbol .closeParen) then
      return []
    else
      let items ← separated (argument inner)
      let _ ← expect (.symbol .closeParen)
      return items

/-- Reads a key with its brackets. -/
def indexKey (inner : Inner) : Parse Expr := do
  let _ ← expect (.symbol .openBracket)
  let key ← withAllowIn true (sequence inner)
  let _ ← expect (.symbol .closeBracket)
  return key

/-- Reads the name of a property: any word, reserved or not. -/
def memberName : Parse String := do
  if (← peekKind).isWord then
    return (← advance).lexeme
  else
    unexpected (.token .identifier)

/-- Reads what follows `?.`. -/
def optionalAccess (inner : Inner) : Parse Access := do
  match ← peekKind with
  | .symbol .openParen => return .call (← arguments inner)
  | .symbol .openBracket => return .index (← indexKey inner)
  | _ => return .member (← memberName)

/-- Reads the call or access that begins with the current token. -/
def access (inner : Inner) (object : Expr) : Parse Expr := do
  match ← peekKind with
  | .symbol .openParen => return .call object (← arguments inner)
  | .symbol .dot =>
    let _ ← advance
    return .member object (← memberName)
  | .symbol .openBracket => return .index object (← indexKey inner)
  | .symbol .questionDot =>
    let _ ← advance
    return .optional object (← optionalAccess inner)
  | _ => unexpected .access

end Grammar
end Scriptlet
