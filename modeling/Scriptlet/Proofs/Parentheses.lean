import Scriptlet.Expr.Display

/-!
# Trees without parentheses

Evaluation looks through parentheses in all places but three: around the callee of a call,
where they take the receiver away, and around the operands of `typeof` and `delete`, which
look at the shape of their operand. All others can be taken out of a tree.
-/

namespace Scriptlet

/-- Whether an operator looks at the shape of its operand. -/
def UnaryOp.seesParentheses : UnaryOp → Bool
  | .typeof | .delete => true
  | _ => false

mutual

/-- An expression without parentheses. Those right around it stay if they are `kept`, and
so do those right around a callee and around an operand of `typeof` or `delete`. -/
def Expr.stripAt (kept : Bool) : Expr → Expr
  | .number value => .number value
  | .string text => .string text
  | .boolean value => .boolean value
  | .null => .null
  | .template head spans => .template head (stripSpans spans)
  | .identifier name => .identifier name
  | .this => .this
  | .array elements => .array (stripElements elements)
  | .object properties => .object (stripProperties properties)
  | .function definition => .function definition.strip
  | .parenthesized inner =>
    if kept then .parenthesized (inner.stripAt false) else inner.stripAt false
  | .sequence members => .sequence (stripExprs members)
  | .new callee arguments => .new (callee.stripAt false) (stripOptionalArguments arguments)
  | .unary op operand => .unary op (operand.stripAt op.seesParentheses)
  | .update op side target => .update op side (target.stripAt false)
  | .binary op left right => .binary op (left.stripAt false) (right.stripAt false)
  | .conditional test consequent alternate =>
    .conditional (test.stripAt false) (consequent.stripAt false) (alternate.stripAt false)
  | .assign target value => .assign (target.stripAt false) (value.stripAt false)
  | .assignWith op target value => .assignWith op (target.stripAt false) (value.stripAt false)
  | .call callee arguments => .call (callee.stripAt true) (stripArguments arguments)
  | .member owner property => .member (owner.stripAt false) property
  | .index owner key => .index (owner.stripAt false) (key.stripAt false)
  | .optional owner access => .optional (owner.stripAt false) access.strip
termination_by structural expr => expr

def Access.strip : Access → Access
  | .member property => .member property
  | .index key => .index (key.stripAt false)
  | .call arguments => .call (stripArguments arguments)

def stripExprs : List Expr → List Expr
  | [] => []
  | expr :: rest => expr.stripAt false :: stripExprs rest

def stripOptionalExpr : Option Expr → Option Expr
  | none => none
  | some expr => some (expr.stripAt false)

/-- The spans of a template. Their sources are text and stay as they are. -/
def stripSpans : List Span → List Span
  | [] => []
  | ⟨source, expr, after⟩ :: rest => ⟨source, expr.stripAt false, after⟩ :: stripSpans rest

def stripElements : List Element → List Element
  | [] => []
  | .hole :: rest => .hole :: stripElements rest
  | .item expr :: rest => .item (expr.stripAt false) :: stripElements rest
  | .spread expr :: rest => .spread (expr.stripAt false) :: stripElements rest

def stripArguments : List Argument → List Argument
  | [] => []
  | ⟨spread, expr⟩ :: rest => ⟨spread, expr.stripAt false⟩ :: stripArguments rest

def stripOptionalArguments : Option (List Argument) → Option (List Argument)
  | none => none
  | some arguments => some (stripArguments arguments)

def PropertyName.strip : PropertyName → PropertyName
  | .identifier name => .identifier name
  | .string name => .string name
  | .number value => .number value
  | .computed expr => .computed (expr.stripAt false)

def stripProperties : List Property → List Property
  | [] => []
  | .value name expr :: rest => .value name.strip (expr.stripAt false) :: stripProperties rest
  | .shorthand name :: rest => .shorthand name :: stripProperties rest
  | .spread expr :: rest => .spread (expr.stripAt false) :: stripProperties rest
  | .method name definition :: rest =>
    .method name.strip definition.strip :: stripProperties rest

def FunctionDefinition.strip : FunctionDefinition → FunctionDefinition
  | ⟨name, params, body, isGenerator⟩ => ⟨name, params, stripStmts body, isGenerator⟩

def stripDeclarations : List Declaration → List Declaration
  | [] => []
  | ⟨name, init⟩ :: rest => ⟨name, stripOptionalExpr init⟩ :: stripDeclarations rest

def ForHead.strip : ForHead → ForHead
  | .declaration kind declarations => .declaration kind (stripDeclarations declarations)
  | .expression expr => .expression (expr.stripAt false)

def stripOptionalHead : Option ForHead → Option ForHead
  | none => none
  | some head => some head.strip

def stripCases : List SwitchCase → List SwitchCase
  | [] => []
  | ⟨test, body⟩ :: rest => ⟨stripOptionalExpr test, stripStmts body⟩ :: stripCases rest

def stripHandler : Option CatchClause → Option CatchClause
  | none => none
  | some ⟨param, body⟩ => some ⟨param, stripStmts body⟩

def stripFinalizer : Option (List Stmt) → Option (List Stmt)
  | none => none
  | some body => some (stripStmts body)

def Stmt.strip : Stmt → Stmt
  | .block body => .block (stripStmts body)
  | .variables kind declarations => .variables kind (stripDeclarations declarations)
  | .import_ bindings specifier => .import_ bindings specifier
  | .export_ isDefault declaration => .export_ isDefault declaration.strip
  | .empty => .empty
  | .expression expr => .expression (expr.stripAt false)
  | .function definition => .function definition.strip
  | .if_ test consequent alternate =>
    .if_ (test.stripAt false) consequent.strip (stripOptionalStmt alternate)
  | .doWhile body test => .doWhile body.strip (test.stripAt false)
  | .while_ test body => .while_ (test.stripAt false) body.strip
  | .for_ init test update body =>
    .for_ (stripOptionalHead init) (stripOptionalExpr test) (stripOptionalExpr update) body.strip
  | .forIn head owner body => .forIn head.strip (owner.stripAt false) body.strip
  | .forOf isAwait head iterable body =>
    .forOf isAwait head.strip (iterable.stripAt false) body.strip
  | .continue_ label => .continue_ label
  | .break_ label => .break_ label
  | .return_ value => .return_ (stripOptionalExpr value)
  | .with_ owner body => .with_ (owner.stripAt false) body.strip
  | .labelled label body => .labelled label body.strip
  | .throw value => .throw (value.stripAt false)
  | .switch discriminant cases => .switch (discriminant.stripAt false) (stripCases cases)
  | .yield value => .yield (stripOptionalExpr value)
  | .try_ body handler finalizer =>
    .try_ (stripStmts body) (stripHandler handler) (stripFinalizer finalizer)
  | .debugger => .debugger

def stripOptionalStmt : Option Stmt → Option Stmt
  | none => none
  | some stmt => some stmt.strip

def stripStmts : List Stmt → List Stmt
  | [] => []
  | stmt :: rest => stmt.strip :: stripStmts rest

end

/-- A script without parentheses, but for those that evaluation does not look through. -/
def Program.strip (program : Program) : Program :=
  ⟨stripStmts program.body⟩

theorem FunctionDefinition.name_strip (definition : FunctionDefinition) :
    definition.strip.name = definition.name := by
  cases definition
  rfl

/-! ## Texts of trees -/

theorem templateText_strip (head : String) (spans : List Span) :
    templateText head (stripSpans spans) = templateText head spans := by
  have pieces : (stripSpans spans).map (fun span => span.text ++ span.after) =
      spans.map fun span => span.text ++ span.after := by
    induction spans with
    | nil => rfl
    | cons span rest ih =>
      obtain ⟨source, expr, after⟩ := span
      have same : (Span.mk source (expr.stripAt false) after).text =
          (Span.mk source expr after).text := rfl
      simp only [stripSpans, List.map_cons, ih, same]
  rw [templateText, templateText, pieces]

mutual

/-- The text of a tree does not show its parentheses. -/
theorem Expr.display_stripAt (kept : Bool) (expr : Expr) :
    (expr.stripAt kept).display = expr.display := by
  cases expr with
  | number _ | string _ | boolean _ | null | identifier _ | this => rfl
  | template head spans =>
    simp only [Expr.stripAt, Expr.display, templateText_strip, displaySpans_strip spans]
  | array elements => simp only [Expr.stripAt, Expr.display, displayElements_strip elements]
  | object properties => simp only [Expr.stripAt, Expr.display, displayProperties_strip properties]
  | function definition => exact definition.display_strip
  | parenthesized inner => cases kept <;> exact inner.display_stripAt false
  | sequence members => simp only [Expr.stripAt, Expr.display, displayExprs_strip members]
  | new callee arguments =>
    simp only [Expr.stripAt, Expr.display, callee.display_stripAt false,
      displayOptionalArguments_strip arguments]
  | unary op operand => simp only [Expr.stripAt, Expr.display, operand.display_stripAt]
  | update op side target => simp only [Expr.stripAt, Expr.display, target.display_stripAt false]
  | binary op left right =>
    simp only [Expr.stripAt, Expr.display, left.display_stripAt false, right.display_stripAt false]
  | conditional test consequent alternate =>
    simp only [Expr.stripAt, Expr.display, test.display_stripAt false,
      consequent.display_stripAt false, alternate.display_stripAt false]
  | assign target value | assignWith op target value =>
    simp only [Expr.stripAt, Expr.display, target.display_stripAt false,
      value.display_stripAt false]
  | call callee arguments =>
    simp only [Expr.stripAt, Expr.display, callee.display_stripAt true,
      displayArguments_strip arguments]
  | member owner property => simp only [Expr.stripAt, Expr.display, owner.display_stripAt false]
  | index owner key =>
    simp only [Expr.stripAt, Expr.display, owner.display_stripAt false, key.display_stripAt false]
  | optional owner access =>
    cases access with
    | member property =>
      simp only [Expr.stripAt, Access.strip, Expr.display, owner.display_stripAt false]
    | index key =>
      simp only [Expr.stripAt, Access.strip, Expr.display, owner.display_stripAt false,
        key.display_stripAt false]
    | call arguments =>
      simp only [Expr.stripAt, Access.strip, Expr.display, owner.display_stripAt false,
        displayArguments_strip arguments]
termination_by structural expr

theorem displayExprs_strip (exprs : List Expr) :
    displayExprs (stripExprs exprs) = displayExprs exprs := by
  cases exprs with
  | nil => rfl
  | cons expr rest =>
    simp only [stripExprs, displayExprs, expr.display_stripAt false, displayExprs_strip rest]

theorem displayOptionalExpr_strip (absent : String) (expr? : Option Expr) :
    displayOptionalExpr absent (stripOptionalExpr expr?) = displayOptionalExpr absent expr? := by
  cases expr? with
  | none => rfl
  | some expr => simp only [stripOptionalExpr, displayOptionalExpr, expr.display_stripAt false]

theorem displaySpans_strip (spans : List Span) :
    displaySpans (stripSpans spans) = displaySpans spans := by
  match spans with
  | [] => rfl
  | ⟨_, expr, _⟩ :: rest =>
    simp only [stripSpans, displaySpans, expr.display_stripAt false, displaySpans_strip rest]

theorem displayElements_strip (elements : List Element) :
    displayElements (stripElements elements) = displayElements elements := by
  match elements with
  | [] => rfl
  | .hole :: rest => simp only [stripElements, displayElements, displayElements_strip rest]
  | .item expr :: rest | .spread expr :: rest =>
    simp only [stripElements, displayElements, expr.display_stripAt false,
      displayElements_strip rest]

theorem displayArguments_strip (arguments : List Argument) :
    displayArguments (stripArguments arguments) = displayArguments arguments := by
  match arguments with
  | [] => rfl
  | ⟨_, expr⟩ :: rest =>
    simp only [stripArguments, displayArguments, expr.display_stripAt false,
      displayArguments_strip rest]

theorem displayOptionalArguments_strip (arguments? : Option (List Argument)) :
    displayOptionalArguments (stripOptionalArguments arguments?) =
      displayOptionalArguments arguments? := by
  match arguments? with
  | none => rfl
  | some arguments => exact displayArguments_strip arguments

theorem PropertyName.display_strip (name : PropertyName) : name.strip.display = name.display := by
  cases name with
  | identifier _ | string _ | number _ => rfl
  | computed expr =>
    simp only [PropertyName.strip, PropertyName.display, expr.display_stripAt false]

theorem displayProperties_strip (properties : List Property) :
    displayProperties (stripProperties properties) = displayProperties properties := by
  match properties with
  | [] => rfl
  | .value name expr :: rest =>
    simp only [stripProperties, displayProperties, name.display_strip, expr.display_stripAt false,
      displayProperties_strip rest]
  | .shorthand _ :: rest =>
    simp only [stripProperties, displayProperties, displayProperties_strip rest]
  | .spread expr :: rest =>
    simp only [stripProperties, displayProperties, expr.display_stripAt false,
      displayProperties_strip rest]
  | .method name definition :: rest =>
    simp only [stripProperties, displayProperties, name.display_strip, definition.display_strip,
      displayProperties_strip rest]

theorem FunctionDefinition.display_strip (definition : FunctionDefinition) :
    definition.strip.display = definition.display := by
  obtain ⟨name, params, body, isGenerator⟩ := definition
  simp only [FunctionDefinition.strip, FunctionDefinition.display, displayStmts_strip body]

theorem displayDeclarations_strip (declarations : List Declaration) :
    displayDeclarations (stripDeclarations declarations) = displayDeclarations declarations := by
  match declarations with
  | [] => rfl
  | ⟨_, none⟩ :: rest =>
    simp only [stripDeclarations, stripOptionalExpr, displayDeclarations,
      displayDeclarations_strip rest]
  | ⟨_, some init⟩ :: rest =>
    simp only [stripDeclarations, stripOptionalExpr, displayDeclarations,
      init.display_stripAt false, displayDeclarations_strip rest]

theorem ForHead.display_strip (head : ForHead) : head.strip.display = head.display := by
  cases head with
  | declaration kind declarations =>
    simp only [ForHead.strip, ForHead.display, displayDeclarations_strip declarations]
  | expression expr => simp only [ForHead.strip, ForHead.display, expr.display_stripAt false]

theorem displayOptionalHead_strip (head? : Option ForHead) :
    displayOptionalHead (stripOptionalHead head?) = displayOptionalHead head? := by
  cases head? with
  | none => rfl
  | some head => simp only [stripOptionalHead, displayOptionalHead, head.display_strip]

theorem displayCases_strip (cases : List SwitchCase) :
    displayCases (stripCases cases) = displayCases cases := by
  match cases with
  | [] => rfl
  | ⟨none, body⟩ :: rest =>
    simp only [stripCases, stripOptionalExpr, displayCases, displayStmts_strip body,
      displayCases_strip rest]
  | ⟨some test, body⟩ :: rest =>
    simp only [stripCases, stripOptionalExpr, displayCases, test.display_stripAt false,
      displayStmts_strip body, displayCases_strip rest]

theorem displayHandler_strip (handler? : Option CatchClause) :
    displayHandler (stripHandler handler?) = displayHandler handler? := by
  match handler? with
  | none => rfl
  | some ⟨_, body⟩ => simp only [stripHandler, displayHandler, displayStmts_strip body]

theorem displayFinalizer_strip (body? : Option (List Stmt)) :
    displayFinalizer (stripFinalizer body?) = displayFinalizer body? := by
  match body? with
  | none => rfl
  | some body => simp only [stripFinalizer, displayFinalizer, displayStmts_strip body]

theorem Stmt.display_strip (stmt : Stmt) : stmt.strip.display = stmt.display := by
  cases stmt with
  | block body => simp only [Stmt.strip, Stmt.display, displayStmts_strip body]
  | «variables» kind declarations =>
    simp only [Stmt.strip, Stmt.display, displayDeclarations_strip declarations]
  | import_ _ _ | empty | continue_ _ | break_ _ | debugger => rfl
  | export_ _ declaration => simp only [Stmt.strip, Stmt.display, declaration.display_strip]
  | expression expr => exact expr.display_stripAt false
  | function definition => exact definition.display_strip
  | if_ test consequent alternate =>
    simp only [Stmt.strip, Stmt.display, test.display_stripAt false, consequent.display_strip,
      displayOptionalStmt_strip alternate]
  | doWhile body test | while_ test body =>
    simp only [Stmt.strip, Stmt.display, body.display_strip, test.display_stripAt false]
  | for_ init test update body =>
    simp only [Stmt.strip, Stmt.display, displayOptionalHead_strip init,
      displayOptionalExpr_strip _ test, displayOptionalExpr_strip _ update, body.display_strip]
  | forIn head owner body =>
    simp only [Stmt.strip, Stmt.display, head.display_strip, owner.display_stripAt false,
      body.display_strip]
  | forOf _ head iterable body =>
    simp only [Stmt.strip, Stmt.display, head.display_strip, iterable.display_stripAt false,
      body.display_strip]
  | return_ value | yield value =>
    simp only [Stmt.strip, Stmt.display, displayOptionalExpr_strip _ value]
  | with_ owner body =>
    simp only [Stmt.strip, Stmt.display, owner.display_stripAt false, body.display_strip]
  | labelled _ body => simp only [Stmt.strip, Stmt.display, body.display_strip]
  | throw value => simp only [Stmt.strip, Stmt.display, value.display_stripAt false]
  | switch discriminant cases =>
    simp only [Stmt.strip, Stmt.display, discriminant.display_stripAt false,
      displayCases_strip cases]
  | try_ body handler finalizer =>
    simp only [Stmt.strip, Stmt.display, displayStmts_strip body, displayHandler_strip handler,
      displayFinalizer_strip finalizer]

theorem displayOptionalStmt_strip (stmt? : Option Stmt) :
    displayOptionalStmt (stripOptionalStmt stmt?) = displayOptionalStmt stmt? := by
  cases stmt? with
  | none => rfl
  | some stmt => simp only [stripOptionalStmt, displayOptionalStmt, stmt.display_strip]

theorem displayStmts_strip (body : List Stmt) :
    displayStmts (stripStmts body) = displayStmts body := by
  cases body with
  | nil => rfl
  | cons stmt rest =>
    simp only [stripStmts, displayStmts, stmt.display_strip, displayStmts_strip rest]

end

/-! ## Stripping again -/

mutual

/-- What is left has nothing more to take out. -/
theorem Expr.stripAt_stripAt (kept : Bool) (expr : Expr) :
    (expr.stripAt kept).stripAt kept = expr.stripAt kept := by
  cases expr with
  | number _ | string _ | boolean _ | null | identifier _ | this => rfl
  | template head spans => simp only [Expr.stripAt, stripSpans_stripSpans spans]
  | array elements => simp only [Expr.stripAt, stripElements_stripElements elements]
  | object properties => simp only [Expr.stripAt, stripProperties_stripProperties properties]
  | function definition => simp only [Expr.stripAt, definition.strip_strip]
  | parenthesized inner =>
    have again := inner.stripAt_stripAt false
    cases kept with
    | false => exact again
    | true => exact congrArg Expr.parenthesized again
  | sequence members => simp only [Expr.stripAt, stripExprs_stripExprs members]
  | new callee arguments =>
    simp only [Expr.stripAt, callee.stripAt_stripAt false,
      stripOptionalArguments_stripOptionalArguments arguments]
  | unary op operand => simp only [Expr.stripAt, operand.stripAt_stripAt]
  | update op side target => simp only [Expr.stripAt, target.stripAt_stripAt false]
  | binary op left right =>
    simp only [Expr.stripAt, left.stripAt_stripAt false, right.stripAt_stripAt false]
  | conditional test consequent alternate =>
    simp only [Expr.stripAt, test.stripAt_stripAt false, consequent.stripAt_stripAt false,
      alternate.stripAt_stripAt false]
  | assign target value | assignWith op target value =>
    simp only [Expr.stripAt, target.stripAt_stripAt false, value.stripAt_stripAt false]
  | call callee arguments =>
    simp only [Expr.stripAt, callee.stripAt_stripAt true, stripArguments_stripArguments arguments]
  | member owner property => simp only [Expr.stripAt, owner.stripAt_stripAt false]
  | index owner key =>
    simp only [Expr.stripAt, owner.stripAt_stripAt false, key.stripAt_stripAt false]
  | optional owner access =>
    simp only [Expr.stripAt, owner.stripAt_stripAt false, access.strip_strip]
termination_by structural expr

theorem Access.strip_strip (access : Access) : access.strip.strip = access.strip := by
  cases access with
  | member _ => rfl
  | index key => simp only [Access.strip, key.stripAt_stripAt false]
  | call arguments => simp only [Access.strip, stripArguments_stripArguments arguments]

theorem stripExprs_stripExprs (exprs : List Expr) :
    stripExprs (stripExprs exprs) = stripExprs exprs := by
  cases exprs with
  | nil => rfl
  | cons expr rest =>
    simp only [stripExprs, expr.stripAt_stripAt false, stripExprs_stripExprs rest]

theorem stripOptionalExpr_stripOptionalExpr (expr? : Option Expr) :
    stripOptionalExpr (stripOptionalExpr expr?) = stripOptionalExpr expr? := by
  cases expr? with
  | none => rfl
  | some expr => simp only [stripOptionalExpr, expr.stripAt_stripAt false]

theorem stripSpans_stripSpans (spans : List Span) :
    stripSpans (stripSpans spans) = stripSpans spans := by
  match spans with
  | [] => rfl
  | ⟨_, expr, _⟩ :: rest =>
    simp only [stripSpans, expr.stripAt_stripAt false, stripSpans_stripSpans rest]

theorem stripElements_stripElements (elements : List Element) :
    stripElements (stripElements elements) = stripElements elements := by
  match elements with
  | [] => rfl
  | .hole :: rest => simp only [stripElements, stripElements_stripElements rest]
  | .item expr :: rest | .spread expr :: rest =>
    simp only [stripElements, expr.stripAt_stripAt false, stripElements_stripElements rest]

theorem stripArguments_stripArguments (arguments : List Argument) :
    stripArguments (stripArguments arguments) = stripArguments arguments := by
  match arguments with
  | [] => rfl
  | ⟨_, expr⟩ :: rest =>
    simp only [stripArguments, expr.stripAt_stripAt false, stripArguments_stripArguments rest]

theorem stripOptionalArguments_stripOptionalArguments (arguments? : Option (List Argument)) :
    stripOptionalArguments (stripOptionalArguments arguments?) =
      stripOptionalArguments arguments? := by
  match arguments? with
  | none => rfl
  | some arguments => simp only [stripOptionalArguments, stripArguments_stripArguments arguments]

theorem PropertyName.strip_strip (name : PropertyName) : name.strip.strip = name.strip := by
  cases name with
  | identifier _ | string _ | number _ => rfl
  | computed expr => simp only [PropertyName.strip, expr.stripAt_stripAt false]

theorem stripProperties_stripProperties (properties : List Property) :
    stripProperties (stripProperties properties) = stripProperties properties := by
  match properties with
  | [] => rfl
  | .value name expr :: rest =>
    simp only [stripProperties, name.strip_strip, expr.stripAt_stripAt false,
      stripProperties_stripProperties rest]
  | .shorthand _ :: rest => simp only [stripProperties, stripProperties_stripProperties rest]
  | .spread expr :: rest =>
    simp only [stripProperties, expr.stripAt_stripAt false, stripProperties_stripProperties rest]
  | .method name definition :: rest =>
    simp only [stripProperties, name.strip_strip, definition.strip_strip,
      stripProperties_stripProperties rest]

theorem FunctionDefinition.strip_strip (definition : FunctionDefinition) :
    definition.strip.strip = definition.strip := by
  obtain ⟨name, params, body, isGenerator⟩ := definition
  simp only [FunctionDefinition.strip, stripStmts_stripStmts body]

theorem stripDeclarations_stripDeclarations (declarations : List Declaration) :
    stripDeclarations (stripDeclarations declarations) = stripDeclarations declarations := by
  match declarations with
  | [] => rfl
  | ⟨_, init⟩ :: rest =>
    simp only [stripDeclarations, stripOptionalExpr_stripOptionalExpr init,
      stripDeclarations_stripDeclarations rest]

theorem ForHead.strip_strip (head : ForHead) : head.strip.strip = head.strip := by
  cases head with
  | declaration kind declarations =>
    simp only [ForHead.strip, stripDeclarations_stripDeclarations declarations]
  | expression expr => simp only [ForHead.strip, expr.stripAt_stripAt false]

theorem stripOptionalHead_stripOptionalHead (head? : Option ForHead) :
    stripOptionalHead (stripOptionalHead head?) = stripOptionalHead head? := by
  cases head? with
  | none => rfl
  | some head => simp only [stripOptionalHead, head.strip_strip]

theorem stripCases_stripCases (cases : List SwitchCase) :
    stripCases (stripCases cases) = stripCases cases := by
  match cases with
  | [] => rfl
  | ⟨test, body⟩ :: rest =>
    simp only [stripCases, stripOptionalExpr_stripOptionalExpr test, stripStmts_stripStmts body,
      stripCases_stripCases rest]

theorem stripHandler_stripHandler (handler? : Option CatchClause) :
    stripHandler (stripHandler handler?) = stripHandler handler? := by
  match handler? with
  | none => rfl
  | some ⟨_, body⟩ => simp only [stripHandler, stripStmts_stripStmts body]

theorem stripFinalizer_stripFinalizer (body? : Option (List Stmt)) :
    stripFinalizer (stripFinalizer body?) = stripFinalizer body? := by
  match body? with
  | none => rfl
  | some body => simp only [stripFinalizer, stripStmts_stripStmts body]

theorem Stmt.strip_strip (stmt : Stmt) : stmt.strip.strip = stmt.strip := by
  cases stmt with
  | block body => simp only [Stmt.strip, stripStmts_stripStmts body]
  | «variables» kind declarations =>
    simp only [Stmt.strip, stripDeclarations_stripDeclarations declarations]
  | import_ _ _ | empty | continue_ _ | break_ _ | debugger => rfl
  | export_ _ declaration => simp only [Stmt.strip, declaration.strip_strip]
  | expression expr => simp only [Stmt.strip, expr.stripAt_stripAt false]
  | function definition => simp only [Stmt.strip, definition.strip_strip]
  | if_ test consequent alternate =>
    simp only [Stmt.strip, test.stripAt_stripAt false, consequent.strip_strip,
      stripOptionalStmt_stripOptionalStmt alternate]
  | doWhile body test | while_ test body =>
    simp only [Stmt.strip, body.strip_strip, test.stripAt_stripAt false]
  | for_ init test update body =>
    simp only [Stmt.strip, stripOptionalHead_stripOptionalHead init,
      stripOptionalExpr_stripOptionalExpr test, stripOptionalExpr_stripOptionalExpr update,
      body.strip_strip]
  | forIn head owner body =>
    simp only [Stmt.strip, head.strip_strip, owner.stripAt_stripAt false, body.strip_strip]
  | forOf _ head iterable body =>
    simp only [Stmt.strip, head.strip_strip, iterable.stripAt_stripAt false, body.strip_strip]
  | return_ value | yield value =>
    simp only [Stmt.strip, stripOptionalExpr_stripOptionalExpr value]
  | with_ owner body => simp only [Stmt.strip, owner.stripAt_stripAt false, body.strip_strip]
  | labelled _ body => simp only [Stmt.strip, body.strip_strip]
  | throw value => simp only [Stmt.strip, value.stripAt_stripAt false]
  | switch discriminant cases =>
    simp only [Stmt.strip, discriminant.stripAt_stripAt false, stripCases_stripCases cases]
  | try_ body handler finalizer =>
    simp only [Stmt.strip, stripStmts_stripStmts body, stripHandler_stripHandler handler,
      stripFinalizer_stripFinalizer finalizer]

theorem stripOptionalStmt_stripOptionalStmt (stmt? : Option Stmt) :
    stripOptionalStmt (stripOptionalStmt stmt?) = stripOptionalStmt stmt? := by
  cases stmt? with
  | none => rfl
  | some stmt => simp only [stripOptionalStmt, stmt.strip_strip]

theorem stripStmts_stripStmts (body : List Stmt) :
    stripStmts (stripStmts body) = stripStmts body := by
  cases body with
  | nil => rfl
  | cons stmt rest => simp only [stripStmts, stmt.strip_strip, stripStmts_stripStmts rest]

end

theorem Program.strip_strip (program : Program) : program.strip.strip = program.strip :=
  congrArg Program.mk (stripStmts_stripStmts program.body)

end Scriptlet
