import Scriptlet.Expr

/-!
# Properties of every node of a tree

A property of expressions and statements holds throughout a tree if the tree has it and
each of its parts does, down to the bodies of functions and the spans of templates.
-/

namespace Scriptlet

/-- An expression or statement at any place of a tree. -/
inductive Node where
  | expr (expr : Expr)
  | stmt (stmt : Stmt)

variable (holds : Node → Prop)

mutual

/-- Whether an expression and everything in it has a property. -/
def Expr.Every : Expr → Prop
  | .number value => holds (.expr (.number value))
  | .string text => holds (.expr (.string text))
  | .boolean value => holds (.expr (.boolean value))
  | .null => holds (.expr .null)
  | .template head spans => holds (.expr (.template head spans)) ∧ everySpan spans
  | .identifier name => holds (.expr (.identifier name))
  | .this => holds (.expr .this)
  | .array elements => holds (.expr (.array elements)) ∧ everyElement elements
  | .object properties => holds (.expr (.object properties)) ∧ everyProperty properties
  | .function definition => holds (.expr (.function definition)) ∧ definition.Every
  | .parenthesized inner => holds (.expr (.parenthesized inner)) ∧ inner.Every
  | .sequence members => holds (.expr (.sequence members)) ∧ everyExpr members
  | .new callee arguments =>
    holds (.expr (.new callee arguments)) ∧ callee.Every ∧ everyOptionalArgument arguments
  | .unary op operand => holds (.expr (.unary op operand)) ∧ operand.Every
  | .update op side target => holds (.expr (.update op side target)) ∧ target.Every
  | .binary op left right =>
    holds (.expr (.binary op left right)) ∧ left.Every ∧ right.Every
  | .conditional test consequent alternate =>
    holds (.expr (.conditional test consequent alternate)) ∧
      test.Every ∧ consequent.Every ∧ alternate.Every
  | .assign target value =>
    holds (.expr (.assign target value)) ∧ target.Every ∧ value.Every
  | .assignWith op target value =>
    holds (.expr (.assignWith op target value)) ∧ target.Every ∧ value.Every
  | .call callee arguments =>
    holds (.expr (.call callee arguments)) ∧ callee.Every ∧ everyArgument arguments
  | .member object property => holds (.expr (.member object property)) ∧ object.Every
  | .index object key => holds (.expr (.index object key)) ∧ object.Every ∧ key.Every
  | .optional object access =>
    holds (.expr (.optional object access)) ∧ object.Every ∧ access.Every
termination_by structural expr => expr

/-- The property for what follows `?.`. -/
def Access.Every : Access → Prop
  | .member _ => True
  | .index key => key.Every
  | .call arguments => everyArgument arguments

/-- The property for a span of a template. -/
def Span.Every : Span → Prop
  | ⟨_, expr, _⟩ => expr.Every

/-- The property for an element of an array literal. -/
def Element.Every : Element → Prop
  | .hole => True
  | .item expr => expr.Every
  | .spread expr => expr.Every

/-- The property for an argument of a call. -/
def Argument.Every : Argument → Prop
  | ⟨_, expr⟩ => expr.Every

/-- The property for the name of a property, which may be computed. -/
def PropertyName.Every : PropertyName → Prop
  | .identifier _ => True
  | .string _ => True
  | .number _ => True
  | .computed expr => expr.Every

/-- The property for an entry of an object literal. -/
def Property.Every : Property → Prop
  | .value name expr => name.Every ∧ expr.Every
  | .shorthand _ => True
  | .spread expr => expr.Every
  | .method name definition => name.Every ∧ definition.Every

/-- The property for the body of a function. -/
def FunctionDefinition.Every : FunctionDefinition → Prop
  | ⟨_, _, body, _⟩ => everyStmt body

/-- The property for a variable with its initial value. -/
def Declaration.Every : Declaration → Prop
  | ⟨_, init⟩ => everyOptionalExpr init

/-- The property for what a loop header starts with. -/
def ForHead.Every : ForHead → Prop
  | .declaration _ declarations => everyDeclaration declarations
  | .expression expr => expr.Every

/-- The property for a clause of a switch. -/
def SwitchCase.Every : SwitchCase → Prop
  | ⟨test, body⟩ => everyOptionalExpr test ∧ everyStmt body

/-- The property for what is done with an exception. -/
def CatchClause.Every : CatchClause → Prop
  | ⟨_, body⟩ => everyStmt body

/-- Whether a statement and everything in it has a property. -/
def Stmt.Every : Stmt → Prop
  | .block body => holds (.stmt (.block body)) ∧ everyStmt body
  | .variables kind declarations =>
    holds (.stmt (.variables kind declarations)) ∧ everyDeclaration declarations
  | .import_ bindings specifier => holds (.stmt (.import_ bindings specifier))
  | .export_ isDefault declaration =>
    holds (.stmt (.export_ isDefault declaration)) ∧ declaration.Every
  | .empty => holds (.stmt .empty)
  | .expression expr => holds (.stmt (.expression expr)) ∧ expr.Every
  | .function definition => holds (.stmt (.function definition)) ∧ definition.Every
  | .if_ test consequent alternate =>
    holds (.stmt (.if_ test consequent alternate)) ∧
      test.Every ∧ consequent.Every ∧ everyOptionalStmt alternate
  | .doWhile body test => holds (.stmt (.doWhile body test)) ∧ body.Every ∧ test.Every
  | .while_ test body => holds (.stmt (.while_ test body)) ∧ test.Every ∧ body.Every
  | .for_ init test update body =>
    holds (.stmt (.for_ init test update body)) ∧
      everyOptionalHead init ∧ everyOptionalExpr test ∧ everyOptionalExpr update ∧
        body.Every
  | .forIn head object body =>
    holds (.stmt (.forIn head object body)) ∧ head.Every ∧ object.Every ∧ body.Every
  | .forOf isAwait head iterable body =>
    holds (.stmt (.forOf isAwait head iterable body)) ∧
      head.Every ∧ iterable.Every ∧ body.Every
  | .continue_ label => holds (.stmt (.continue_ label))
  | .break_ label => holds (.stmt (.break_ label))
  | .return_ value => holds (.stmt (.return_ value)) ∧ everyOptionalExpr value
  | .with_ object body => holds (.stmt (.with_ object body)) ∧ object.Every ∧ body.Every
  | .labelled label body => holds (.stmt (.labelled label body)) ∧ body.Every
  | .throw value => holds (.stmt (.throw value)) ∧ value.Every
  | .switch discriminant cases =>
    holds (.stmt (.switch discriminant cases)) ∧ discriminant.Every ∧ everyCase cases
  | .yield value => holds (.stmt (.yield value)) ∧ everyOptionalExpr value
  | .try_ block handler finalizer =>
    holds (.stmt (.try_ block handler finalizer)) ∧
      everyStmt block ∧ everyHandler handler ∧ everyOptionalBody finalizer
  | .debugger => holds (.stmt .debugger)

def everyExpr : List Expr → Prop
  | [] => True
  | first :: rest => first.Every ∧ everyExpr rest

def everySpan : List Span → Prop
  | [] => True
  | first :: rest => first.Every ∧ everySpan rest

def everyElement : List Element → Prop
  | [] => True
  | first :: rest => first.Every ∧ everyElement rest

def everyArgument : List Argument → Prop
  | [] => True
  | first :: rest => first.Every ∧ everyArgument rest

def everyProperty : List Property → Prop
  | [] => True
  | first :: rest => first.Every ∧ everyProperty rest

def everyDeclaration : List Declaration → Prop
  | [] => True
  | first :: rest => first.Every ∧ everyDeclaration rest

def everyCase : List SwitchCase → Prop
  | [] => True
  | first :: rest => first.Every ∧ everyCase rest

def everyStmt : List Stmt → Prop
  | [] => True
  | first :: rest => first.Every ∧ everyStmt rest

def everyOptionalExpr : Option Expr → Prop
  | none => True
  | some part => part.Every

def everyOptionalHead : Option ForHead → Prop
  | none => True
  | some part => part.Every

def everyOptionalStmt : Option Stmt → Prop
  | none => True
  | some part => part.Every

def everyHandler : Option CatchClause → Prop
  | none => True
  | some part => part.Every

def everyOptionalArgument : Option (List Argument) → Prop
  | none => True
  | some arguments => everyArgument arguments

def everyOptionalBody : Option (List Stmt) → Prop
  | none => True
  | some body => everyStmt body

end

theorem everyExpr_iff {exprs : List Expr} :
    everyExpr holds exprs ↔ ∀ expr ∈ exprs, expr.Every holds := by
  induction exprs with
  | nil => simp [everyExpr]
  | cons first rest ih => simp [everyExpr, ih]

theorem everySpan_iff {spans : List Span} :
    everySpan holds spans ↔ ∀ span ∈ spans, span.expr.Every holds := by
  induction spans with
  | nil => simp [everySpan]
  | cons first rest ih =>
    obtain ⟨source, expr, after⟩ := first
    simp [everySpan, Span.Every, ih]

theorem everyArgument_iff {arguments : List Argument} :
    everyArgument holds arguments ↔ ∀ argument ∈ arguments, argument.expr.Every holds := by
  induction arguments with
  | nil => simp [everyArgument]
  | cons first rest ih =>
    obtain ⟨spread, expr⟩ := first
    simp [everyArgument, Argument.Every, ih]

theorem everyElement_iff {elements : List Element} :
    everyElement holds elements ↔ ∀ element ∈ elements, element.Every holds := by
  induction elements with
  | nil => simp [everyElement]
  | cons first rest ih => simp [everyElement, ih]

theorem everyProperty_iff {properties : List Property} :
    everyProperty holds properties ↔ ∀ property ∈ properties, property.Every holds := by
  induction properties with
  | nil => simp [everyProperty]
  | cons first rest ih => simp [everyProperty, ih]

theorem everyDeclaration_iff {declarations : List Declaration} :
    everyDeclaration holds declarations ↔
      ∀ declaration ∈ declarations, declaration.Every holds := by
  induction declarations with
  | nil => simp [everyDeclaration]
  | cons first rest ih => simp [everyDeclaration, ih]

theorem everyCase_iff {cases : List SwitchCase} :
    everyCase holds cases ↔ ∀ clause ∈ cases, clause.Every holds := by
  induction cases with
  | nil => simp [everyCase]
  | cons first rest ih => simp [everyCase, ih]

theorem everyStmt_iff {stmts : List Stmt} :
    everyStmt holds stmts ↔ ∀ stmt ∈ stmts, stmt.Every holds := by
  induction stmts with
  | nil => simp [everyStmt]
  | cons first rest ih => simp [everyStmt, ih]

section

variable {holds}

mutual

/-- A property of all nodes whatsoever holds throughout every tree. -/
theorem Expr.every_of_forall (all : ∀ node, holds node) : ∀ expr : Expr, expr.Every holds
  | .number _ | .string _ | .boolean _ | .null | .identifier _ | .this => all _
  | .template _ spans => ⟨all _, everySpan_of_forall all spans⟩
  | .array elements => ⟨all _, everyElement_of_forall all elements⟩
  | .object properties => ⟨all _, everyProperty_of_forall all properties⟩
  | .function definition => ⟨all _, definition.every_of_forall all⟩
  | .parenthesized inner => ⟨all _, inner.every_of_forall all⟩
  | .sequence members => ⟨all _, everyExpr_of_forall all members⟩
  | .new callee arguments =>
    ⟨all _, callee.every_of_forall all, everyOptionalArgument_of_forall all arguments⟩
  | .call callee arguments =>
    ⟨all _, callee.every_of_forall all, everyArgument_of_forall all arguments⟩
  | .unary _ operand | .update _ _ operand | .member operand _ =>
    ⟨all _, operand.every_of_forall all⟩
  | .binary _ left right | .assign left right | .assignWith _ left right | .index left right =>
    ⟨all _, left.every_of_forall all, right.every_of_forall all⟩
  | .conditional test consequent alternate =>
    ⟨all _, test.every_of_forall all, consequent.every_of_forall all,
      alternate.every_of_forall all⟩
  | .optional object access => ⟨all _, object.every_of_forall all, access.every_of_forall all⟩
termination_by structural expr => expr

theorem Access.every_of_forall (all : ∀ node, holds node) : ∀ access : Access, access.Every holds
  | .member _ => trivial
  | .index key => key.every_of_forall all
  | .call arguments => everyArgument_of_forall all arguments

theorem PropertyName.every_of_forall (all : ∀ node, holds node) :
    ∀ name : PropertyName, name.Every holds
  | .identifier _ | .string _ | .number _ => trivial
  | .computed expr => expr.every_of_forall all

theorem FunctionDefinition.every_of_forall (all : ∀ node, holds node) :
    ∀ definition : FunctionDefinition, definition.Every holds
  | ⟨_, _, body, _⟩ => everyStmt_of_forall all body

theorem ForHead.every_of_forall (all : ∀ node, holds node) : ∀ head : ForHead, head.Every holds
  | .declaration _ declarations => everyDeclaration_of_forall all declarations
  | .expression expr => expr.every_of_forall all

theorem Stmt.every_of_forall (all : ∀ node, holds node) : ∀ stmt : Stmt, stmt.Every holds
  | .import_ _ _ | .empty | .continue_ _ | .break_ _ | .debugger => all _
  | .block body => ⟨all _, everyStmt_of_forall all body⟩
  | .variables _ declarations => ⟨all _, everyDeclaration_of_forall all declarations⟩
  | .export_ _ body | .labelled _ body => ⟨all _, body.every_of_forall all⟩
  | .expression expr | .throw expr => ⟨all _, expr.every_of_forall all⟩
  | .function definition => ⟨all _, definition.every_of_forall all⟩
  | .if_ test consequent alternate =>
    ⟨all _, test.every_of_forall all, consequent.every_of_forall all,
      everyOptionalStmt_of_forall all alternate⟩
  | .doWhile body test => ⟨all _, body.every_of_forall all, test.every_of_forall all⟩
  | .while_ test body | .with_ test body =>
    ⟨all _, test.every_of_forall all, body.every_of_forall all⟩
  | .for_ init test update body =>
    ⟨all _, everyOptionalHead_of_forall all init, everyOptionalExpr_of_forall all test,
      everyOptionalExpr_of_forall all update, body.every_of_forall all⟩
  | .forIn head object body | .forOf _ head object body =>
    ⟨all _, head.every_of_forall all, object.every_of_forall all, body.every_of_forall all⟩
  | .return_ value | .yield value => ⟨all _, everyOptionalExpr_of_forall all value⟩
  | .switch discriminant cases =>
    ⟨all _, discriminant.every_of_forall all, everyCase_of_forall all cases⟩
  | .try_ block handler finalizer =>
    ⟨all _, everyStmt_of_forall all block, everyHandler_of_forall all handler,
      everyOptionalBody_of_forall all finalizer⟩

theorem everyExpr_of_forall (all : ∀ node, holds node) : ∀ exprs, everyExpr holds exprs
  | [] => trivial
  | first :: rest => ⟨first.every_of_forall all, everyExpr_of_forall all rest⟩

theorem everySpan_of_forall (all : ∀ node, holds node) : ∀ spans, everySpan holds spans
  | [] => trivial
  | ⟨_, expr, _⟩ :: rest => ⟨expr.every_of_forall all, everySpan_of_forall all rest⟩

theorem everyElement_of_forall (all : ∀ node, holds node) :
    ∀ elements, everyElement holds elements
  | [] => trivial
  | .hole :: rest => ⟨trivial, everyElement_of_forall all rest⟩
  | .item expr :: rest | .spread expr :: rest =>
    ⟨expr.every_of_forall all, everyElement_of_forall all rest⟩

theorem everyArgument_of_forall (all : ∀ node, holds node) :
    ∀ arguments, everyArgument holds arguments
  | [] => trivial
  | ⟨_, expr⟩ :: rest => ⟨expr.every_of_forall all, everyArgument_of_forall all rest⟩

theorem everyProperty_of_forall (all : ∀ node, holds node) :
    ∀ properties, everyProperty holds properties
  | [] => trivial
  | .value name expr :: rest =>
    ⟨⟨name.every_of_forall all, expr.every_of_forall all⟩, everyProperty_of_forall all rest⟩
  | .shorthand _ :: rest => ⟨trivial, everyProperty_of_forall all rest⟩
  | .spread expr :: rest => ⟨expr.every_of_forall all, everyProperty_of_forall all rest⟩
  | .method name definition :: rest =>
    ⟨⟨name.every_of_forall all, definition.every_of_forall all⟩, everyProperty_of_forall all rest⟩

theorem everyDeclaration_of_forall (all : ∀ node, holds node) :
    ∀ declarations, everyDeclaration holds declarations
  | [] => trivial
  | ⟨_, init⟩ :: rest =>
    ⟨everyOptionalExpr_of_forall all init, everyDeclaration_of_forall all rest⟩

theorem everyCase_of_forall (all : ∀ node, holds node) : ∀ cases, everyCase holds cases
  | [] => trivial
  | ⟨test, body⟩ :: rest =>
    ⟨⟨everyOptionalExpr_of_forall all test, everyStmt_of_forall all body⟩,
      everyCase_of_forall all rest⟩

theorem everyStmt_of_forall (all : ∀ node, holds node) : ∀ stmts, everyStmt holds stmts
  | [] => trivial
  | first :: rest => ⟨first.every_of_forall all, everyStmt_of_forall all rest⟩

theorem everyOptionalExpr_of_forall (all : ∀ node, holds node) :
    ∀ expr, everyOptionalExpr holds expr
  | none => trivial
  | some expr => expr.every_of_forall all

theorem everyOptionalHead_of_forall (all : ∀ node, holds node) :
    ∀ head, everyOptionalHead holds head
  | none => trivial
  | some head => head.every_of_forall all

theorem everyOptionalStmt_of_forall (all : ∀ node, holds node) :
    ∀ stmt, everyOptionalStmt holds stmt
  | none => trivial
  | some stmt => stmt.every_of_forall all

theorem everyHandler_of_forall (all : ∀ node, holds node) : ∀ handler, everyHandler holds handler
  | none => trivial
  | some ⟨_, body⟩ => everyStmt_of_forall all body

theorem everyOptionalArgument_of_forall (all : ∀ node, holds node) :
    ∀ arguments, everyOptionalArgument holds arguments
  | none => trivial
  | some arguments => everyArgument_of_forall all arguments

theorem everyOptionalBody_of_forall (all : ∀ node, holds node) :
    ∀ body, everyOptionalBody holds body
  | none => trivial
  | some body => everyStmt_of_forall all body

end

end

end Scriptlet
