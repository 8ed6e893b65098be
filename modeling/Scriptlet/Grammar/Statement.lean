import Scriptlet.Grammar.Access

/-!
# Statements

A statement ends with a semicolon, or without one at a line break, at a closing brace or
at the end of the input.
-/

namespace Scriptlet
namespace Grammar

/-- Reads the end of a statement. -/
def semicolon : Parse Unit := do
  if ← eat (.symbol .semicolon) then
    return ()
  else
    let token ← peek
    if token.newlineBefore || token.kind = .symbol .closeBrace || token.kind = .eof then
      return ()
    else
      unexpected (.token (.symbol .semicolon))

/-- Reads an expression in the parentheses of a statement. -/
def condition (inner : Inner) : Parse Expr := do
  let _ ← expect (.symbol .openParen)
  let expr ← withAllowIn true (sequence inner)
  let _ ← expect (.symbol .closeParen)
  return expr

/-! ## Variables and jumps -/

/-- The word that a token introduces variables with. -/
def declarationKind? : Kind → Option DeclarationKind
  | .keyword .var => some .var
  | .keyword .let_ => some .let_
  | .keyword .const => some .const
  | _ => none

/-- Reads the value of a variable, if it has one. -/
def initializer (inner : Inner) : Parse (Option Expr) := do
  if ← eat (.symbol .equals) then return some (← inner.expr 0) else return none

/-- Reads a variable with its initial value. -/
def declaration (inner : Inner) : Parse Declaration := do
  let name ← expectIdentifier
  let init ← initializer inner
  return ⟨name, init⟩

/-- Reads the word that introduces variables, and the variables. -/
def declarations (inner : Inner) : Parse (List Declaration) := do
  let _ ← advance
  separated (declaration inner)

/-- Reads the label of a jump. It stands on the same line. -/
def jumpLabel : Parse (Option String) := do
  let token ← peek
  if token.kind = .identifier && !token.newlineBefore then
    let _ ← advance
    semicolon
    return some token.lexeme
  else
    semicolon
    return none

/-- Reads the value of a jump. It begins on the same line. -/
def jumpValue (inner : Inner) : Parse (Option Expr) := do
  let token ← peek
  if token.kind.beginsExpr && !token.newlineBefore then
    let expr ← sequence inner
    semicolon
    return some expr
  else
    semicolon
    return none

/-! ## Branches -/

/-- Reads the second branch of a condition, if there is one. -/
def alternate (inner : Inner) : Parse (Option Stmt) := do
  if ← eat (.keyword .else_) then return some (← inner.stmt) else return none

/-- Reads a condition with its branches. -/
def ifStmt (inner : Inner) : Parse Stmt := do
  let _ ← advance
  let test ← condition inner
  let consequent ← inner.stmt
  return .if_ test consequent (← alternate inner)

/-- Reads the rest of a clause of a switch. -/
def switchClause (inner : Inner) (test : Option Expr) : Parse SwitchCase := do
  let _ ← expect (.symbol .colon)
  let body ← stmtList inner
  return ⟨test, body⟩

/-- Reads a clause of a switch, or its end. -/
def switchStep (inner : Inner) (cases : List SwitchCase) : Parse (Step (List SwitchCase)) := do
  match ← peekKind with
  | .symbol .closeBrace =>
    let _ ← advance
    return .done cases
  | .keyword .case =>
    let _ ← advance
    let test ← sequence inner
    return .again ((← switchClause inner (some test)) :: cases)
  | .keyword .default =>
    let _ ← advance
    return .again ((← switchClause inner none) :: cases)
  | _ => unexpected .switchClause

/-- Reads a switch. -/
def switchStmt (inner : Inner) : Parse Stmt := do
  let _ ← advance
  let discriminant ← condition inner
  let _ ← expect (.symbol .openBrace)
  let cases ← loop (switchStep inner) []
  return .switch discriminant cases.reverse

/-! ## Loops -/

/-- Reads what the header of a loop starts with. `in` is no operator there. -/
def forHead (inner : Inner) : Parse (Option ForHead) := do
  let kind ← peekKind
  if kind = .symbol .semicolon then
    return none
  else
    match declarationKind? kind with
    | some modifier =>
      return some (.declaration modifier (← withAllowIn false (declarations inner)))
    | none => return some (.expression (← withAllowIn false (sequence inner)))

/-- Reads an expression unless the header of a loop has none at this place. -/
def forPart (inner : Inner) (close : Symbol) : Parse (Option Expr) := do
  if (← peekKind) = .symbol close then return none else return some (← sequence inner)

/-- Reads the rest of a loop with a condition and an update. -/
def forRest (inner : Inner) (init : Option ForHead) : Parse Stmt := do
  let _ ← expect (.symbol .semicolon)
  let test ← forPart inner .semicolon
  let _ ← expect (.symbol .semicolon)
  let update ← forPart inner .closeParen
  let _ ← expect (.symbol .closeParen)
  return .for_ init test update (← inner.stmt)

/-- Reads the rest of a loop over keys. -/
def forInRest (inner : Inner) (head : ForHead) : Parse Stmt := do
  let _ ← advance
  let object ← sequence inner
  let _ ← expect (.symbol .closeParen)
  return .forIn head object (← inner.stmt)

/-- Reads the rest of a loop over values. -/
def forOfRest (inner : Inner) (isAwait : Bool) (head : ForHead) : Parse Stmt := do
  let _ ← advance
  let iterable ← inner.expr 0
  let _ ← expect (.symbol .closeParen)
  return .forOf isAwait head iterable (← inner.stmt)

/-- Whether a loop can assign to its head. -/
def ForHead.isTarget : ForHead → Bool
  | .declaration .. => true
  | .expression expr => expr.isTarget

/-- Reads the rest of a loop after its head. -/
def forAfterHead (inner : Inner) (isAwait : Bool) (head : ForHead) : Parse Stmt := do
  let overKeys := (← peekKind) = .keyword .in_
  let overValues ← atWord "of"
  if (overKeys || overValues) && !ForHead.isTarget head then
    unexpected (.token (.symbol .semicolon))
  else if overKeys && !isAwait then
    forInRest inner head
  else if overValues then
    forOfRest inner isAwait head
  else if isAwait then
    unexpected (.word "of")
  else
    forRest inner (some head)

/-- Reads a loop with a header. -/
def forStmt (inner : Inner) : Parse Stmt := do
  let _ ← advance
  let isAwait ← eat (.keyword .await)
  let _ ← expect (.symbol .openParen)
  match ← forHead inner with
  | some head => forAfterHead inner isAwait head
  | none => if isAwait then unexpected (.word "of") else forRest inner none

/-- Reads a loop that tests its condition after the body. -/
def doWhileStmt (inner : Inner) : Parse Stmt := do
  let _ ← advance
  let body ← inner.stmt
  let _ ← expect (.keyword .while_)
  let test ← condition inner
  let _ ← eat (.symbol .semicolon)
  return .doWhile body test

/-- Reads a loop that tests its condition before the body. -/
def whileStmt (inner : Inner) : Parse Stmt := do
  let _ ← advance
  let test ← condition inner
  return .while_ test (← inner.stmt)

/-! ## Exceptions -/

/-- Reads the name of an exception, if it has one. -/
def catchParam : Parse (Option String) := do
  if ← eat (.symbol .openParen) then
    let name ← expectIdentifier
    let _ ← expect (.symbol .closeParen)
    return some name
  else
    return none

/-- Reads what is done with an exception, if there is such a clause. -/
def handler (inner : Inner) : Parse (Option CatchClause) := do
  if ← eat (.keyword .catch_) then
    let param ← catchParam
    let body ← block inner
    return some ⟨param, body⟩
  else
    return none

/-- Reads what is done in any case, if there is such a clause. -/
def finalizer (inner : Inner) : Parse (Option (List Stmt)) := do
  if ← eat (.keyword .finally_) then return some (← block inner) else return none

/-- Reads a block with clauses for exceptions. It has at least one of them. -/
def tryStmt (inner : Inner) : Parse Stmt := do
  let _ ← advance
  let body ← block inner
  let onError ← handler inner
  let always ← finalizer inner
  if onError.isNone && always.isNone then unexpected .catchOrFinally
  else return .try_ body onError always

/-! ## Modules -/

/-- Reads a name between the braces of an import, and the name that it gets. -/
def importName : Parse String := do
  let name ← memberName
  if ← atWord "as" then
    let _ ← advance
    expectIdentifier
  else
    return name

/-- Reads the names of an import after the default one. -/
def importNames : Parse (List String) := do
  match ← peekKind with
  | .symbol .asterisk =>
    let _ ← advance
    expectWord "as"
    return [← expectIdentifier]
  | .symbol .openBrace =>
    let _ ← advance
    closedList .closeBrace importName
  | _ => return []

/-- Reads the default name of an import, if there is one. -/
def importDefault : Parse (List String) := do
  if (← peekKind) = .identifier then
    let name ← expectIdentifier
    let _ ← eat (.symbol .comma)
    return [name]
  else
    return []

/-- Reads the names of an import up to the word `from`. -/
def importBindings : Parse (List String) := do
  if (← peekKind) = .string then
    return []
  else
    let first ← importDefault
    let names ← importNames
    expectWord "from"
    return first ++ names

/-- Reads an import. -/
def importStmt : Parse Stmt := do
  let _ ← advance
  let bindings ← importBindings
  let specifier ← expect .string
  semicolon
  return .import_ bindings specifier.lexeme

/-- Reads an export. -/
def exportStmt (inner : Inner) : Parse Stmt := do
  let _ ← advance
  let isDefault ← eat (.keyword .default)
  return .export_ isDefault (← inner.stmt)

/-! ## All statements -/

/-- Reads variables as a statement. -/
def variablesStmt (inner : Inner) (kind : DeclarationKind) : Parse Stmt := do
  let items ← declarations inner
  semicolon
  return .variables kind items

/-- Reads a statement that begins with an expression. A single name before a colon is a
label. -/
def exprStmt (inner : Inner) : Parse Stmt := do
  let expr ← sequence inner
  match expr, ← peekKind with
  | .identifier label, .symbol .colon =>
    let _ ← advance
    return .labelled label (← inner.stmt)
  | _, _ =>
    semicolon
    return .expression expr

/-- Reads a statement with an object in scope. -/
def withStmt (inner : Inner) : Parse Stmt := do
  let _ ← advance
  let object ← condition inner
  return .with_ object (← inner.stmt)

/-- Reads the raising of an exception. -/
def throwStmt (inner : Inner) : Parse Stmt := do
  let _ ← advance
  let value ← sequence inner
  semicolon
  return .throw value

/-- Reads a statement. -/
def stmtBody (inner : Inner) : Parse Stmt := do
  match ← peekKind with
  | .symbol .openBrace => return .block (← block inner)
  | .keyword .var => variablesStmt inner .var
  | .keyword .let_ => variablesStmt inner .let_
  | .keyword .const => variablesStmt inner .const
  | .keyword .import_ => importStmt
  | .keyword .export_ => exportStmt inner
  | .symbol .semicolon =>
    let _ ← advance
    return .empty
  | .keyword .function => return .function (← function inner true)
  | .keyword .if_ => ifStmt inner
  | .keyword .do_ => doWhileStmt inner
  | .keyword .while_ => whileStmt inner
  | .keyword .for_ => forStmt inner
  | .keyword .continue_ =>
    let _ ← advance
    return .continue_ (← jumpLabel)
  | .keyword .break_ =>
    let _ ← advance
    return .break_ (← jumpLabel)
  | .keyword .return_ =>
    let _ ← advance
    return .return_ (← jumpValue inner)
  | .keyword .yield =>
    let _ ← advance
    return .yield (← jumpValue inner)
  | .keyword .with_ => withStmt inner
  | .keyword .switch => switchStmt inner
  | .keyword .throw => throwStmt inner
  | .keyword .try_ => tryStmt inner
  | .keyword .debugger =>
    let _ ← advance
    semicolon
    return .debugger
  | _ => exprStmt inner

end Grammar
end Scriptlet
