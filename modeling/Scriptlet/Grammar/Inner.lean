import Scriptlet.Expr
import Scriptlet.Grammar.State

/-!
# What a construct contains

The parts of a construct are one level further in than the construct itself. Every
function of the grammar takes the parses of that inner level as a parameter, so that the
grammar is built up level by level.
-/

namespace Scriptlet
namespace Grammar

/-- The parses that are available one level further in. -/
structure Inner where
  /-- An expression whose operators have at least the given power. -/
  expr : Nat → Parse Expr
  /-- A statement. -/
  stmt : Parse Stmt
  /-- An expression with `new`. -/
  newExpr : Parse Expr
  /-- The expression of a template token. -/
  template : Token → Except Error Expr

/-- Reads one or more expressions with commas between them. A single expression is no
sequence. -/
def sequence (inner : Inner) : Parse Expr := do
  match ← separated (inner.expr 0) with
  | [expr] => return expr
  | members => return .sequence members

/-- Reads a statement, if the current token can begin one. -/
def stmtStep (inner : Inner) (stmts : List Stmt) : Parse (Step (List Stmt)) := do
  if (← peekKind).beginsStmt then
    return .again ((← inner.stmt) :: stmts)
  else
    return .done stmts

/-- Reads statements as long as the current token can begin one. -/
def stmtList (inner : Inner) : Parse (List Stmt) := do
  let stmts ← loop (stmtStep inner) []
  return stmts.reverse

/-- Reads statements between braces. -/
def block (inner : Inner) : Parse (List Stmt) := do
  let _ ← expect (.symbol .openBrace)
  let body ← withAllowIn true (stmtList inner)
  let _ ← expect (.symbol .closeBrace)
  return body

/-- Reads the parameters between the parentheses of a function. -/
def params : Parse (List String) := do
  let _ ← expect (.symbol .openParen)
  if ← eat (.symbol .closeParen) then
    return []
  else
    let names ← separated expectIdentifier
    let _ ← expect (.symbol .closeParen)
    return names

/-- Reads the parameters and the body of a function. -/
def functionRest (inner : Inner) (name : Option String) (isGenerator : Bool) :
    Parse FunctionDefinition := do
  let names ← params
  let body ← block inner
  return ⟨name, names, body, isGenerator⟩

/-- Reads the name of a function, which only a declaration needs to have. -/
def functionName (needsName : Bool) : Parse (Option String) := do
  if (← peekKind) = .identifier || needsName then
    return some (← expectIdentifier)
  else
    return none

/-- Reads a function from the word `function` on. -/
def function (inner : Inner) (needsName : Bool) : Parse FunctionDefinition := do
  let _ ← expect (.keyword .function)
  let isGenerator ← eat (.symbol .asterisk)
  let name ← functionName needsName
  functionRest inner name isGenerator

end Grammar
end Scriptlet
