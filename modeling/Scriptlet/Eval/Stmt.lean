import Scriptlet.Eval.Expr

/-!
# Running statements and calls

The functions of a list of statements are declared before its other statements run.
Blocks have no scope of their own. A call runs in a new frame inside the scope that its
function was made in; the number of calls that may still be opened decreases with each, so
that every run ends.
-/

namespace Scriptlet
namespace Eval

/-- How a statement ended. -/
inductive Completion where
  | normal (value : Value)
  | returned (value : Value)

/-- The value of a completion, whichever way the statement ended. -/
def Completion.value : Completion → Value
  | .normal value | .returned value => value

/-- The value that a call gives after its body ended. -/
def Completion.result : Completion → Value
  | .normal _ => .undefined
  | .returned value => value

/-- Declares a function in a scope. -/
def declare (scope : FrameId) (definition : FunctionDefinition) : Eval Unit := do
  match definition.name with
  | none => throw (.type .unnamedDeclaration)
  | some name => define scope name (← newFunction (.script definition scope))

/-- Declares the functions of a list of statements. -/
def hoist (scope : FrameId) : List Stmt → Eval Unit
  | [] => return ()
  | .function definition :: rest => do
    declare scope definition
    hoist scope rest
  | _ :: rest => hoist scope rest

/-- Declares a variable. Without an initial value, a variable that is there keeps its
value. -/
def declareVariable (call : Call) (scope : FrameId) (declaration : Declaration) :
    Eval Unit := do
  match declaration.init with
  | some init => define scope declaration.name (← evalExpr call scope init)
  | none =>
    if ← bindsLocally scope declaration.name then
      return ()
    else
      define scope declaration.name .undefined

/-- Declares variables in order. -/
def declareVariables (call : Call) (scope : FrameId) : List Declaration → Eval Unit
  | [] => return ()
  | declaration :: rest => do
    declareVariable call scope declaration
    declareVariables call scope rest

/-- The value that a `return` gives. -/
def returnValue (call : Call) (scope : FrameId) : Option Expr → Eval Value
  | none => return .undefined
  | some expr => evalExpr call scope expr

mutual

/-- Runs a statement. -/
def runStmt (call : Call) (scope : FrameId) : Stmt → Eval Completion
  | .block body => do
    hoist scope body
    runRest call scope .undefined body
  | .variables _ declarations => do
    declareVariables call scope declarations
    return .normal .undefined
  | .empty => return .normal .undefined
  | .expression expr => return .normal (← evalExpr call scope expr)
  | .function definition => do
    declare scope definition
    return .normal .undefined
  | .if_ test consequent alternate => do
    if (← evalExpr call scope test).isTruthy then
      runStmt call scope consequent
    else
      runOptional call scope alternate
  | .return_ value => return .returned (← returnValue call scope value)
  | .import_ _ _ => throw (.unimplemented .importDeclaration)
  | .export_ _ _ => throw (.unimplemented .exportDeclaration)
  | .doWhile _ _ => throw (.unimplemented .doWhileStatement)
  | .while_ _ _ => throw (.unimplemented .whileStatement)
  | .for_ _ _ _ _ => throw (.unimplemented .forStatement)
  | .forIn _ _ _ => throw (.unimplemented .forInStatement)
  | .forOf _ _ _ _ => throw (.unimplemented .forOfStatement)
  | .continue_ _ => throw (.unimplemented .continueStatement)
  | .break_ _ => throw (.unimplemented .breakStatement)
  | .with_ _ _ => throw (.unimplemented .withStatement)
  | .labelled _ _ => throw (.unimplemented .labelledStatement)
  | .throw _ => throw (.unimplemented .throwStatement)
  | .switch _ _ => throw (.unimplemented .switchStatement)
  | .yield _ => throw (.unimplemented .yieldStatement)
  | .try_ _ _ _ => throw (.unimplemented .tryStatement)
  | .debugger => throw (.unimplemented .debuggerStatement)
termination_by structural stmt => stmt

/-- Runs a statement that may be absent. -/
def runOptional (call : Call) (scope : FrameId) : Option Stmt → Eval Completion
  | none => return .normal .undefined
  | some stmt => runStmt call scope stmt

/-- Runs the statements of a list that are not functions, up to the first `return`. `last`
is the value of the statement before. -/
def runRest (call : Call) (scope : FrameId) (last : Value) : List Stmt → Eval Completion
  | [] => return .normal last
  | .function _ :: rest => runRest call scope last rest
  | stmt :: rest => do
    match ← runStmt call scope stmt with
    | .normal value => runRest call scope value rest
    | .returned value => return .returned value

end

/-- Runs a list of statements. -/
def runStmts (call : Call) (scope : FrameId) (body : List Stmt) : Eval Completion := do
  hoist scope body
  runRest call scope .undefined body

/-! ## Calls -/

/-- Gives the parameters of a call their values. A parameter without argument is
undefined. -/
def bindParams (scope : FrameId) : List String → List Value → Eval Unit
  | [], _ => return ()
  | name :: names, [] => do
    define scope name .undefined
    bindParams scope names []
  | name :: names, value :: values => do
    define scope name value
    bindParams scope names values

/-- Gives a call its receiver, if it has one. -/
def bindThis (scope : FrameId) : Option Value → Eval Unit
  | none => return ()
  | some receiver => define scope "this" receiver

/-- Makes the frame of a call. -/
def callScope (scope : FrameId) (params : List String) (receiver : Option Value)
    (arguments : List Value) : Eval FrameId := do
  let frame ← newScope scope
  bindThis frame receiver
  bindParams frame params arguments
  return frame

/-- Runs the body of a function in the frame of a call. -/
def callBody (call : Call) (definition : FunctionDefinition) (scope : FrameId)
    (receiver : Option Value) (arguments : List Value) : Eval Value := do
  let frame ← callScope scope definition.params receiver arguments
  let completion ← runStmts call frame definition.body
  return completion.result

/-- Calls a function, with at most `limit` calls open at a time. The calls that its body
makes are up to `call`. -/
def callStep (limit : Nat) (call : Call) : Call
  | .native _ behaviour, _, arguments => callNative behaviour arguments
  | .script definition scope, receiver, arguments =>
    if definition.isGenerator then
      throw (.unimplemented .generatorFunctions)
    else
      withCall limit (callBody call definition scope receiver arguments)

/-- Calls a function, with at most `room` calls inside one another. -/
def callFunction (limit : Nat) : Nat → Call
  | 0, _, _, _ => throw (.tooDeep limit)
  | room + 1, function, receiver, arguments =>
    callStep limit (callFunction limit room) function receiver arguments

/-- The calls that can be inside one another: those that the limit leaves, and one that it
refuses. -/
def callRoom (limit : Nat) (machine : Machine) : Nat :=
  limit - machine.openCalls + 1

/-- Calls a function, with all the calls that the machine leaves room for. -/
def callWithin (limit : Nat) : Call := fun function receiver arguments machine =>
  callFunction limit (callRoom limit machine) function receiver arguments machine

/-- Runs a script in a scope. Its value is that of its last statement or of a `return`. -/
def runProgram (limit : Nat) (scope : FrameId) (program : Program) : Eval Value :=
  fun machine =>
    (Completion.value <$>
      runStmts (callFunction limit (callRoom limit machine)) scope program.body) machine

end Eval
end Scriptlet
