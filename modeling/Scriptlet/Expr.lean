import Scriptlet.Expr.Operator

/-!
# Syntax trees

Expressions and statements. Parentheses are kept in the tree. A template is kept as the
text before its first span and, for each span, its source, its expression and the text
after it, so that the pieces in order are the text of the template.
-/

namespace Scriptlet

/-- The word that introduces variables. -/
inductive DeclarationKind where
  | var
  | let_
  | const
  deriving Repr, DecidableEq

def DeclarationKind.spelling : DeclarationKind → String
  | .var => "var"
  | .let_ => "let"
  | .const => "const"

mutual

/-- An expression. -/
inductive Expr where
  | number (value : Float)
  | string (text : String)
  | boolean (value : Bool)
  | null
  | template (head : String) (spans : List Span)
  | identifier (name : String)
  | this
  | array (elements : List Element)
  | object (properties : List Property)
  | function (definition : FunctionDefinition)
  | parenthesized (inner : Expr)
  | sequence (members : List Expr)
  | new (callee : Expr) (arguments : Option (List Argument))
  | unary (op : UnaryOp) (operand : Expr)
  | update (op : UpdateOp) (side : UpdateSide) (target : Expr)
  | binary (op : BinaryOp) (left right : Expr)
  | conditional (test consequent alternate : Expr)
  | assign (target value : Expr)
  | assignWith (op : BinaryOp) (target value : Expr)
  | call (callee : Expr) (arguments : List Argument)
  | member (object : Expr) (property : String)
  | index (object key : Expr)
  | optional (object : Expr) (access : Access)

/-- What follows `?.` in an optional chain. -/
inductive Access where
  | member (property : String)
  | index (key : Expr)
  | call (arguments : List Argument)

/-- A span of a template: the text between its braces, the expression that it holds, and
the plain text up to the next span or the end. -/
structure Span where
  source : String
  expr : Expr
  after : String

/-- An element of an array literal. -/
inductive Element where
  | hole
  | item (expr : Expr)
  | spread (expr : Expr)

/-- An argument of a call; a spread argument stands for the elements of an array. -/
structure Argument where
  spread : Bool
  expr : Expr

/-- The name of a property in an object literal. -/
inductive PropertyName where
  | identifier (name : String)
  | string (name : String)
  | number (value : Float)
  | computed (expr : Expr)

/-- An entry of an object literal. -/
inductive Property where
  | value (name : PropertyName) (expr : Expr)
  | shorthand (name : String)
  | spread (expr : Expr)
  | method (name : PropertyName) (definition : FunctionDefinition)

/-- A function as it is written. -/
structure FunctionDefinition where
  name : Option String
  params : List String
  body : List Stmt
  isGenerator : Bool

/-- A variable with its initial value. -/
structure Declaration where
  name : String
  init : Option Expr

/-- What a loop header starts with or assigns to. -/
inductive ForHead where
  | declaration (kind : DeclarationKind) (declarations : List Declaration)
  | expression (expr : Expr)

/-- A clause of a switch; the default clause has no test. -/
structure SwitchCase where
  test : Option Expr
  body : List Stmt

/-- What is done with an exception. -/
structure CatchClause where
  param : Option String
  body : List Stmt

/-- A statement. -/
inductive Stmt where
  | block (body : List Stmt)
  | variables (kind : DeclarationKind) (declarations : List Declaration)
  | import_ (bindings : List String) (specifier : String)
  | export_ (isDefault : Bool) (declaration : Stmt)
  | empty
  | expression (expr : Expr)
  | function (definition : FunctionDefinition)
  | if_ (test : Expr) (consequent : Stmt) (alternate : Option Stmt)
  | doWhile (body : Stmt) (test : Expr)
  | while_ (test : Expr) (body : Stmt)
  | for_ (init : Option ForHead) (test update : Option Expr) (body : Stmt)
  | forIn (head : ForHead) (object : Expr) (body : Stmt)
  | forOf (isAwait : Bool) (head : ForHead) (iterable : Expr) (body : Stmt)
  | continue_ (label : Option String)
  | break_ (label : Option String)
  | return_ (value : Option Expr)
  | with_ (object : Expr) (body : Stmt)
  | labelled (label : String) (body : Stmt)
  | throw (value : Expr)
  | switch (discriminant : Expr) (cases : List SwitchCase)
  | yield (value : Option Expr)
  | try_ (block : List Stmt) (handler : Option CatchClause) (finalizer : Option (List Stmt))
  | debugger

end

/-- A script. -/
structure Program where
  body : List Stmt

/-- Whether an expression can be assigned to: a variable or a property, with any number of
parentheses around it. -/
def Expr.isTarget : Expr → Bool
  | .identifier _ | .member .. | .index .. => true
  | .parenthesized inner => inner.isTarget
  | _ => false

/-- The expression that an operation makes of its operands. -/
def Operation.apply (operation : Operation) (left right : Expr) : Expr :=
  match operation with
  | .assign => .assign left right
  | .assignWith op => .assignWith op left right
  | .binary op => .binary op left right

/-- The source of a span with its delimiters. -/
def Span.text (span : Span) : String :=
  "$\x7b" ++ span.source ++ "\x7d"

/-- The text of a template between its backticks. -/
def templateText (head : String) (spans : List Span) : String :=
  head ++ String.join (spans.map fun span => span.text ++ span.after)

/-- The byte ranges of the spans of a template in its text, which begins `offset` bytes
before the first of them. -/
def spanRanges (offset : Nat) : List Span → List (Nat × Nat)
  | [] => []
  | span :: rest =>
    let stop := offset + span.text.utf8ByteSize
    (offset, stop) :: spanRanges (stop + span.after.utf8ByteSize) rest

end Scriptlet
