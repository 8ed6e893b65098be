import Scriptlet.Grammar.Operation
import Scriptlet.Grammar.Statement
import Scriptlet.Grammar.Template

/-!
# Nesting

The grammar, built from the inside out: the parses of a level are made from those of the
level further in, and the innermost level is too deep. The text of a template has no
backtick, so its spans hold no templates: spans have a grammar without them.
-/

namespace Scriptlet
namespace Grammar

/-- How deep constructs may be nested in each other. -/
def maxNesting : Nat := 128

/-- The parses of a level that has `room` levels further in. -/
def levels (limit : Nat) (template : Token → Except Error Expr) : Nat → Inner
  | 0 =>
    { expr := fun _ => tooDeep limit
      stmt := tooDeep limit
      newExpr := tooDeep limit
      template }
  | room + 1 =>
    let inner := levels limit template room
    { expr := fun least => nested (exprBody inner least)
      stmt := nested (stmtBody inner)
      newExpr := nested (newBody inner)
      template }

/-- Runs a parse with the levels that the nesting of the state leaves. -/
def entering {α : Type} (limit : Nat) (template : Token → Except Error Expr)
    (parse : Inner → Parse α) : Parse α := fun state =>
  parse (levels limit template (limit - state.depth)) state

/-! ## Spans of templates -/

/-- No template begins with this token. -/
def noTemplate (token : Token) : Except Error Expr :=
  .error (.unexpected .expression token.description token.start)

/-- Reads one or more expressions up to the end of the input. -/
def wholeSequence (inner : Inner) : Parse Expr := do
  let expr ← sequence inner
  let _ ← expect .eof
  return expr

/-- The value of a parse that is over. -/
def outcome {α : Type} : EStateM.Result Error State α → Except Error α
  | .ok value _ => .ok value
  | .error error _ => .error error

/-- The expression of a span, whose source begins at byte offset `base`. -/
def spanExpr (limit base : Nat) (source : List Char) : Except Error Expr :=
  match State.ofText base source with
  | .error error => .error error
  | .ok state => outcome (entering limit noTemplate wholeSequence state)

/-! ## Scripts -/

/-- Runs a parse of the full grammar. -/
def parsing {α : Type} (limit : Nat) (parse : Inner → Parse α) : Parse α :=
  entering limit (template (spanExpr limit)) parse

/-- Reads statements up to the end of the input. -/
def program (inner : Inner) : Parse Program := do
  let body ← stmtList inner
  let _ ← expect .eof
  return ⟨body⟩

/-- Reads an expression whose operators have at least the given power. -/
def parseExpr (least : Nat) (limit : Nat := maxNesting) : Parse Expr :=
  parsing limit (·.expr least)

/-- Reads one or more expressions with commas between them. -/
def parseSequence (limit : Nat := maxNesting) : Parse Expr :=
  parsing limit sequence

/-- Reads a statement. -/
def parseStmt (limit : Nat := maxNesting) : Parse Stmt :=
  parsing limit (·.stmt)

/-- Reads statements as long as the current token can begin one. -/
def parseStmts (limit : Nat := maxNesting) : Parse (List Stmt) :=
  parsing limit stmtList

/-- Reads statements between braces. -/
def parseBlock (limit : Nat := maxNesting) : Parse (List Stmt) :=
  parsing limit block

/-- Reads a whole script. -/
def parseProgram (limit : Nat := maxNesting) : Parse Program :=
  parsing limit program

end Grammar

/-- The tree of a script. -/
def Program.parse (text : String) (limit : Nat := Grammar.maxNesting) :
    Except Error Program :=
  match Grammar.State.ofText 0 text.toList with
  | .error error => .error error
  | .ok state => Grammar.outcome (Grammar.parseProgram limit state)

end Scriptlet
