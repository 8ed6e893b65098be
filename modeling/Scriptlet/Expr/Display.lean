import Scriptlet.Expr
import Scriptlet.Number.Format
import Scriptlet.Text.Quoted

/-!
# Syntax trees as text

A tree is written as nested lists in parentheses with the operator first. Parentheses of
the script are not shown.
-/

namespace Scriptlet

/-- The texts with `separator` between them. -/
def joinWith (separator : String) : List String → String
  | [] => ""
  | first :: rest => first ++ String.join (rest.map (separator ++ ·))

/-- Each text with a space before it. -/
def spaced (texts : List String) : String :=
  String.join (texts.map (" " ++ ·))

/-- Statements between braces. -/
def braced (texts : List String) : String :=
  "\x7b" ++ joinWith " " texts ++ "\x7d"

mutual

def Expr.display : Expr → String
  | .number value => Number.literalText value
  | .string text => Text.quoted text
  | .boolean value => if value then "true" else "false"
  | .null => "null"
  | .template head spans =>
    "(template " ++ Text.quoted (templateText head spans) ++ spaced (displaySpans spans) ++ ")"
  | .identifier name => name
  | .this => "this"
  | .array elements => "[" ++ joinWith ", " (displayElements elements) ++ "]"
  | .object properties =>
    "\x7b" ++ joinWith ", " (displayProperties properties) ++ "\x7d"
  | .function definition => definition.display
  | .parenthesized inner => inner.display
  | .sequence members => "(," ++ spaced (displayExprs members) ++ ")"
  | .new callee arguments =>
    "(new " ++ callee.display ++ spaced (displayOptionalArguments arguments) ++ ")"
  | .unary op operand => "(" ++ op.spelling ++ " " ++ operand.display ++ ")"
  | .update op side target =>
    let fixity := match side with
      | .before => "pre"
      | .after => "post"
    "(" ++ fixity ++ op.spelling ++ " " ++ target.display ++ ")"
  | .binary op left right =>
    "(" ++ op.spelling ++ " " ++ left.display ++ " " ++ right.display ++ ")"
  | .conditional test consequent alternate =>
    "(? " ++ test.display ++ " " ++ consequent.display ++ " " ++ alternate.display ++ ")"
  | .assign target value => "(= " ++ target.display ++ " " ++ value.display ++ ")"
  | .assignWith op target value =>
    "(" ++ op.spelling ++ "= " ++ target.display ++ " " ++ value.display ++ ")"
  | .call callee arguments =>
    "(call " ++ callee.display ++ spaced (displayArguments arguments) ++ ")"
  | .member object property => "(. " ++ object.display ++ " " ++ property ++ ")"
  | .index object key => "([] " ++ object.display ++ " " ++ key.display ++ ")"
  | .optional object (.member property) =>
    "(?. " ++ object.display ++ " " ++ property ++ ")"
  | .optional object (.index key) => "(?.[] " ++ object.display ++ " " ++ key.display ++ ")"
  | .optional object (.call arguments) =>
    "(?.call " ++ object.display ++ spaced (displayArguments arguments) ++ ")"
termination_by structural expr => expr

def displayExprs : List Expr → List String
  | [] => []
  | expr :: rest => expr.display :: displayExprs rest

def displayOptionalExpr (absent : String) : Option Expr → String
  | none => absent
  | some expr => " " ++ expr.display

def displaySpans : List Span → List String
  | [] => []
  | ⟨_, expr, _⟩ :: rest => expr.display :: displaySpans rest

def displayElements : List Element → List String
  | [] => []
  | .hole :: rest => "" :: displayElements rest
  | .item expr :: rest => expr.display :: displayElements rest
  | .spread expr :: rest => ("..." ++ expr.display) :: displayElements rest

def displayArguments : List Argument → List String
  | [] => []
  | ⟨spread, expr⟩ :: rest =>
    ((if spread then "..." else "") ++ expr.display) :: displayArguments rest

def displayOptionalArguments : Option (List Argument) → List String
  | none => []
  | some arguments => displayArguments arguments

def PropertyName.display : PropertyName → String
  | .identifier name => name
  | .string name => Text.quoted name
  | .number value => Number.literalText value
  | .computed expr => "[" ++ expr.display ++ "]"

def displayProperties : List Property → List String
  | [] => []
  | .value name expr :: rest =>
    (name.display ++ ": " ++ expr.display) :: displayProperties rest
  | .shorthand name :: rest => name :: displayProperties rest
  | .spread expr :: rest => ("..." ++ expr.display) :: displayProperties rest
  | .method name definition :: rest =>
    (name.display ++ ": " ++ definition.display) :: displayProperties rest

def FunctionDefinition.display : FunctionDefinition → String
  | ⟨name, params, body, isGenerator⟩ =>
    (if isGenerator then "(function*" else "(function") ++
      (match name with
        | some name => " " ++ name
        | none => "") ++
      " (" ++ joinWith " " params ++ ") " ++ braced (displayStmts body) ++ ")"

def displayDeclarations : List Declaration → List String
  | [] => []
  | ⟨name, none⟩ :: rest => name :: displayDeclarations rest
  | ⟨name, some init⟩ :: rest =>
    ("(= " ++ name ++ " " ++ init.display ++ ")") :: displayDeclarations rest

def ForHead.display : ForHead → String
  | .declaration kind declarations =>
    "(" ++ kind.spelling ++ spaced (displayDeclarations declarations) ++ ")"
  | .expression expr => expr.display

def displayOptionalHead : Option ForHead → String
  | none => " _"
  | some head => " " ++ head.display

def displayCases : List SwitchCase → String
  | [] => ""
  | ⟨none, body⟩ :: rest =>
    " (default" ++ spaced (displayStmts body) ++ ")" ++ displayCases rest
  | ⟨some test, body⟩ :: rest =>
    " (case " ++ test.display ++ spaced (displayStmts body) ++ ")" ++ displayCases rest

def displayHandler : Option CatchClause → String
  | none => ""
  | some ⟨param, body⟩ =>
    " (catch" ++
      (match param with
        | some param => " " ++ param
        | none => "") ++
      " " ++ braced (displayStmts body) ++ ")"

def displayFinalizer : Option (List Stmt) → String
  | none => ""
  | some body => " (finally " ++ braced (displayStmts body) ++ ")"

def Stmt.display : Stmt → String
  | .block body => braced (displayStmts body)
  | .variables kind declarations =>
    "(" ++ kind.spelling ++ spaced (displayDeclarations declarations) ++ ")"
  | .import_ bindings specifier =>
    "(import (" ++ joinWith " " bindings ++ ") " ++ Text.quoted specifier ++ ")"
  | .export_ isDefault declaration =>
    (if isDefault then "(export default " else "(export ") ++ declaration.display ++ ")"
  | .empty => ";"
  | .expression expr => expr.display
  | .function definition => definition.display
  | .if_ test consequent alternate =>
    "(if " ++ test.display ++ " " ++ consequent.display ++
      displayOptionalStmt alternate ++ ")"
  | .doWhile body test => "(do " ++ body.display ++ " " ++ test.display ++ ")"
  | .while_ test body => "(while " ++ test.display ++ " " ++ body.display ++ ")"
  | .for_ init test update body =>
    "(for" ++ displayOptionalHead init ++ displayOptionalExpr " _" test ++
      displayOptionalExpr " _" update ++ " " ++ body.display ++ ")"
  | .forIn head object body =>
    "(for-in " ++ head.display ++ " " ++ object.display ++ " " ++ body.display ++ ")"
  | .forOf isAwait head iterable body =>
    (if isAwait then "(for-await-of " else "(for-of ") ++ head.display ++ " " ++
      iterable.display ++ " " ++ body.display ++ ")"
  | .continue_ none => "(continue)"
  | .continue_ (some label) => "(continue " ++ label ++ ")"
  | .break_ none => "(break)"
  | .break_ (some label) => "(break " ++ label ++ ")"
  | .return_ value => "(return" ++ displayOptionalExpr "" value ++ ")"
  | .with_ object body => "(with " ++ object.display ++ " " ++ body.display ++ ")"
  | .labelled label body => "(label " ++ label ++ " " ++ body.display ++ ")"
  | .throw value => "(throw " ++ value.display ++ ")"
  | .switch discriminant cases =>
    "(switch " ++ discriminant.display ++ displayCases cases ++ ")"
  | .yield value => "(yield" ++ displayOptionalExpr "" value ++ ")"
  | .try_ block handler finalizer =>
    "(try " ++ braced (displayStmts block) ++ displayHandler handler ++
      displayFinalizer finalizer ++ ")"
  | .debugger => "debugger"

def displayOptionalStmt : Option Stmt → String
  | none => ""
  | some stmt => " " ++ stmt.display

def displayStmts : List Stmt → List String
  | [] => []
  | stmt :: rest => stmt.display :: displayStmts rest

end

/-- A script as text, one line for each statement. -/
def Program.display (program : Program) : String :=
  joinWith "\n" (displayStmts program.body)

end Scriptlet
