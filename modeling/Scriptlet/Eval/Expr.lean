import Scriptlet.Eval.Machine
import Scriptlet.Expr.Display

/-!
# Evaluating expressions

Operands are evaluated from left to right. How a function is called is a parameter, so
that evaluation recurs on the expression alone.

* `evalExpr` gives the value of an expression;
* `evalReference` resolves what can be assigned to;
* `evalCallee` resolves what is called, with the receiver of the call.
-/

namespace Scriptlet
namespace Eval

/-- How a function is called, with its receiver and its arguments. -/
abbrev Call := Function → Option Value → List Value → Eval Value

/-- What a call goes to: the value that is called, and the object it was read from. -/
structure Callee where
  value : Value
  receiver : Option Value

/-! ## Parts that do not recur -/

/-- Makes a function in a scope. A function with a name sees itself under that name, in a
scope of its own. -/
def closure (scope : FrameId) (definition : FunctionDefinition) : Eval Value := do
  match definition.name with
  | none => newFunction (.script definition scope)
  | some name =>
    let own ← newScope scope
    let function ← newFunction (.script definition own)
    define own name function
    return function

/-- The receiver of the current call. Without one, the scope gets a new object for it. -/
def thisValue (scope : FrameId) : Eval Value := do
  if ← binds scope "this" then
    lookup scope "this"
  else
    let object ← newObject .empty
    define scope "this" object
    return object

/-- A callee as error messages call it. -/
def calleeName : Expr → String
  | .identifier name => name
  | .member object property => calleeName object ++ "." ++ property
  | .this => "this"
  | _ => "expression"

/-- The function that is called. -/
def asFunction (name : String) : Value → Eval Function
  | .function _ function => pure function
  | value => throw (.type (.notFunction name value.typeName))

/-- Whether the operand of `typeof` is a name without a variable. -/
def isUnbound (scope : FrameId) : Expr → Eval Bool
  | .identifier name => return !(← binds scope name)
  | _ => return false

/-- Whether `delete` takes a property out. -/
def isProperty : Expr → Bool
  | .member .. | .index .. => true
  | _ => false

/-- The value after an update. -/
def updated (op : UpdateOp) (old : Float) : Float :=
  match op with
  | .increment => old + 1
  | .decrement => old - 1

/-- Reads a property, and remembers the object as the receiver. -/
def memberCallee (object : Value) (key : String) : Eval Callee := do
  return ⟨← getProperty object key, some object⟩

/-- What a call goes to: an access, or a plain value without receiver. -/
def resolve (accessed : Option (Eval (Option Callee))) (plain : Eval Value) :
    Eval (Option Callee) :=
  match accessed with
  | some access => access
  | none => (fun value => some ⟨value, none⟩) <$> plain

mutual

/-- The value of an expression. -/
def evalExpr (call : Call) (scope : FrameId) : Expr → Eval Value
  | .number value => return .number value
  | .string text => return .string text
  | .boolean value => return .boolean value
  | .null => return .null
  | .template head spans => return .string (head ++ (← evalSpans call scope spans))
  | .identifier name => lookup scope name
  | .this => thisValue scope
  | .array elements => do
    let items ← evalElements call scope elements
    newArray items
  | .object properties => do
    let object ← evalProperties call scope .empty properties
    newObject object
  | .function definition => closure scope definition
  | .parenthesized inner => evalExpr call scope inner
  | .sequence members => evalSequence call scope .undefined members
  | .new _ _ => throw (.unimplemented .newExpressions)
  | .unary .typeof operand => do
    if ← isUnbound scope operand then
      return .string "undefined"
    else
      unary .typeof (← evalExpr call scope operand)
  | .unary .delete operand => do
    if isProperty operand then
      return .boolean (← deleteReference (← evalReference call scope operand))
    else
      unary .delete (← evalExpr call scope operand)
  | .unary op operand => do
    unary op (← evalExpr call scope operand)
  | .update op side target => do
    let reference ← evalReference call scope target
    let old ← toNumber (← getReference reference)
    setReference reference (.number (updated op old))
    match side with
    | .before => return .number (updated op old)
    | .after => return .number old
  | .binary op left right => do
    let first ← evalExpr call scope left
    if op.shortCircuits first then
      return first
    else
      binary op first (← evalExpr call scope right)
  | .conditional test consequent alternate => do
    if (← evalExpr call scope test).isTruthy then
      evalExpr call scope consequent
    else
      evalExpr call scope alternate
  | .assign target value => do
    let reference ← evalReference call scope target
    let result ← evalExpr call scope value
    setReference reference result
    return result
  | .assignWith op target value => do
    let reference ← evalReference call scope target
    let current ← getReference reference
    if op.shortCircuits current then
      return current
    else
      let result ← binary op current (← evalExpr call scope value)
      setReference reference result
      return result
  | .call callee arguments => do
    match ← resolve (evalAccessed call scope callee) (evalExpr call scope callee) with
    | none => return .undefined
    | some target =>
      let function ← asFunction (calleeName callee) target.value
      let values ← evalArguments call scope arguments
      call function target.receiver values
  | .member object property => do
    getProperty (← evalExpr call scope object) property
  | .index object key => do
    let target ← evalExpr call scope object
    getProperty target (← display (← evalExpr call scope key))
  | .optional object access => do
    let target ← evalExpr call scope object
    if target.isNullish then
      return .undefined
    else
      return (← evalAccess call scope target access).value
termination_by structural expr => expr

/-- What a call goes to, for a callee that is an access: nothing, if an optional chain ends
at null or undefined. -/
def evalAccessed (call : Call) (scope : FrameId) : Expr → Option (Eval (Option Callee))
  | .member object property => some do
    return some (← memberCallee (← evalExpr call scope object) property)
  | .index object key => some do
    let target ← evalExpr call scope object
    return some (← memberCallee target (← display (← evalExpr call scope key)))
  | .optional object access => some do
    let target ← evalExpr call scope object
    if target.isNullish then
      return none
    else
      return some (← evalAccess call scope target access)
  | _ => none

/-- What follows `?.` after an object that is there. -/
def evalAccess (call : Call) (scope : FrameId) (target : Value) : Access → Eval Callee
  | .member property => memberCallee target property
  | .index key => do
    memberCallee target (← display (← evalExpr call scope key))
  | .call arguments => do
    let values ← evalArguments call scope arguments
    let function ← asFunction "expression" target
    return ⟨← call function none values, none⟩

/-- The variable or property that an expression stands for. -/
def evalReference (call : Call) (scope : FrameId) : Expr → Eval Reference
  | .identifier name => return .variable_ scope name
  | .parenthesized inner => evalReference call scope inner
  | .member object property => return .property (← evalExpr call scope object) property
  | .index object key => do
    let target ← evalExpr call scope object
    return .property target (← display (← evalExpr call scope key))
  | expr => throw (.type (.invalidTarget expr.display))

/-- The value of the last of several expressions. -/
def evalSequence (call : Call) (scope : FrameId) (last : Value) : List Expr → Eval Value
  | [] => return last
  | expr :: rest => do
    let value ← evalExpr call scope expr
    evalSequence call scope value rest

/-- The values of arguments; a spread one gives the elements of an array. -/
def evalArguments (call : Call) (scope : FrameId) : List Argument → Eval (List Value)
  | [] => return []
  | ⟨true, expr⟩ :: rest => do
    let values ← spread (← evalExpr call scope expr)
    return values ++ (← evalArguments call scope rest)
  | ⟨false, expr⟩ :: rest => do
    let value ← evalExpr call scope expr
    return value :: (← evalArguments call scope rest)

/-- The elements of an array literal. -/
def evalElements (call : Call) (scope : FrameId) :
    List Element → Eval (List (Option Value))
  | [] => return []
  | .hole :: rest => return none :: (← evalElements call scope rest)
  | .item expr :: rest => do
    let value ← evalExpr call scope expr
    return some value :: (← evalElements call scope rest)
  | .spread expr :: rest => do
    let values ← spread (← evalExpr call scope expr)
    return values.map some ++ (← evalElements call scope rest)

/-- The key of a property in an object literal. -/
def evalName (call : Call) (scope : FrameId) : PropertyName → Eval String
  | .identifier name => return name
  | .string name => return name
  | .number value => return Number.text value
  | .computed expr => do
    display (← evalExpr call scope expr)

/-- Adds the entries of an object literal to an object. -/
def evalProperties (call : Call) (scope : FrameId) (object : Object) :
    List Property → Eval Object
  | [] => return object
  | .value name expr :: rest => do
    let key ← evalName call scope name
    let value ← evalExpr call scope expr
    evalProperties call scope (object.set key value) rest
  | .shorthand name :: rest => do
    let value ← lookup scope name
    evalProperties call scope (object.set name value) rest
  | .spread expr :: rest => do
    let source ← properties (← evalExpr call scope expr)
    evalProperties call scope (object.merge source) rest
  | .method name definition :: rest => do
    let key ← evalName call scope name
    let function ← closure scope definition
    evalProperties call scope (object.set key function) rest

/-- The text of a template from its first span on. -/
def evalSpans (call : Call) (scope : FrameId) : List Span → Eval String
  | [] => return ""
  | ⟨_, expr, after⟩ :: rest => do
    let text ← display (← evalExpr call scope expr)
    return text ++ after ++ (← evalSpans call scope rest)

end

/-- What a call goes to: nothing, if the callee is an optional chain that ends at null or
undefined. -/
def evalCallee (call : Call) (scope : FrameId) (callee : Expr) : Eval (Option Callee) :=
  resolve (evalAccessed call scope callee) (evalExpr call scope callee)

end Eval
end Scriptlet
