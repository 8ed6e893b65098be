import Scriptlet.Engine
import Scriptlet.Proofs.Parentheses
import Scriptlet.Proofs.Recoding

/-!
# Parentheses are transparent

A script without its parentheses runs as the script does: it writes the same, has the same
value or fails with the same error, and leaves the same machine behind, except that the
functions it made have code without parentheses too. The proof follows the recursion of
the evaluator, with the stripped tree on stripped machines.
-/

namespace Scriptlet

open Eval

/-- The parentheses taken out of the code of every function. -/
def stripping : Recoding :=
  ⟨FunctionDefinition.strip, FunctionDefinition.name_strip⟩

def Value.strip : Value → Value := Value.recode stripping

def Machine.strip : Machine → Machine := Machine.recode stripping

namespace Eval

variable {call call' : Call}

/-- Whether a computation does on stripped machines what another one does. -/
def Strips {α β : Type} (f : α → β) (x : Eval α) (y : Eval β) : Prop :=
  Recodes stripping f x y

/-- Two ways of calling functions, the second one for stripped functions and values. -/
def StripsCalls (call call' : Call) : Prop :=
  ∀ function receiver arguments, Strips Value.strip (call function receiver arguments)
    (call' (function.recode stripping) (receiver.map Value.strip) (arguments.map Value.strip))

/-! ## Parts that do not recur -/

def Callee.strip (callee : Callee) : Callee :=
  ⟨callee.value.strip, callee.receiver.map Value.strip⟩

theorem strips_closure (scope : FrameId) (definition : FunctionDefinition) :
    Strips Value.strip (closure scope definition) (closure scope definition.strip) := by
  unfold closure
  rw [definition.name_strip]
  cases definition.name with
  | none => exact recodes_newFunction (.script definition scope)
  | some name =>
    refine (recodes_newScope scope).bind fun own => ?_
    refine (recodes_newFunction (.script definition own)).bind fun function => ?_
    refine (recodes_define own name function).bind fun _ => ?_
    exact recodes_pure rfl

theorem strips_thisValue (scope : FrameId) :
    Strips Value.strip (thisValue scope) (thisValue scope) := by
  refine (recodes_binds scope "this").bind fun bound => ?_
  simp only [id_eq]
  split
  · exact recodes_lookup scope "this"
  · refine (recodes_newObject .empty).bind fun object => ?_
    refine (recodes_define scope "this" object).bind fun _ => ?_
    exact recodes_pure rfl

/-- The two may call a value that is no function by different texts. -/
theorem strips_asFunction (text text' : String) (value : Value) :
    Strips (Function.recode stripping) (asFunction text value) (asFunction text' value.strip) := by
  cases value with
  | function id target => exact recodes_pure rfl
  | _ => exact recodes_throw rfl

theorem strips_memberCallee (value : Value) (key : String) :
    Strips Callee.strip (memberCallee value key) (memberCallee value.strip key) :=
  (recodes_getProperty value key).bind fun _ => recodes_pure rfl

/-- Parentheses around the operand of `typeof` stay, so a name is a name in both. -/
theorem strips_isUnbound (scope : FrameId) (operand : Expr) :
    Strips id (isUnbound scope operand) (isUnbound scope (operand.stripAt true)) := by
  cases operand with
  | identifier name => exact (recodes_binds scope name).bind fun _ => recodes_pure rfl
  | _ => exact recodes_pure rfl

theorem isProperty_stripAt (operand : Expr) :
    isProperty (operand.stripAt true) = isProperty operand := by
  cases operand <;> rfl

theorem strips_resolve {accessed accessed' : Option (Eval (Option Callee))}
    {plain plain' : Eval Value}
    (access : Option.Rel (Strips (Option.map Callee.strip)) accessed accessed')
    (value : Strips Value.strip plain plain') :
    Strips (Option.map Callee.strip) (resolve accessed plain) (resolve accessed' plain') := by
  cases access with
  | some access => exact access
  | none =>
    show Strips _ (_ <$> plain) (_ <$> plain')
    rw [map_eq_pure_bind, map_eq_pure_bind]
    exact value.bind fun _ => recodes_pure rfl

/-! ## Expressions -/

mutual

theorem strips_evalExpr (calls : StripsCalls call call') (kept : Bool) (expr : Expr)
    (scope : FrameId) :
    Strips Value.strip (evalExpr call scope expr) (evalExpr call' scope (expr.stripAt kept)) := by
  cases expr with
  | number _ | string _ | boolean _ | null => exact recodes_pure rfl
  | template head spans =>
    simp only [Expr.stripAt, evalExpr]
    exact (strips_evalSpans calls spans scope).bind fun _ => recodes_pure rfl
  | identifier name => exact recodes_lookup scope name
  | this => exact strips_thisValue scope
  | array elements =>
    simp only [Expr.stripAt, evalExpr]
    exact (strips_evalElements calls elements scope).bind fun items => recodes_newArray items
  | object properties =>
    simp only [Expr.stripAt, evalExpr]
    exact (strips_evalProperties calls .empty properties scope).bind fun object =>
      recodes_newObject object
  | function definition => exact strips_closure scope definition
  | parenthesized inner =>
    -- both look through the parentheses, whether they stay or not
    cases kept <;> exact strips_evalExpr calls false inner scope
  | sequence members => exact strips_evalSequence calls .undefined members scope
  | new callee arguments => exact recodes_throw rfl
  | unary op operand =>
    have plain : Strips Value.strip (do unary op (← evalExpr call scope operand))
        (do unary op (← evalExpr call' scope (operand.stripAt op.seesParentheses))) :=
      (strips_evalExpr calls op.seesParentheses operand scope).bind fun value =>
        recodes_unary op value
    cases op with
    | typeof =>
      simp only [Expr.stripAt, evalExpr, UnaryOp.seesParentheses]
      refine (strips_isUnbound scope operand).bind fun unbound => ?_
      simp only [id_eq]
      split
      · exact recodes_pure rfl
      · exact plain
    | delete =>
      simp only [Expr.stripAt, evalExpr, UnaryOp.seesParentheses, isProperty_stripAt]
      split
      · refine (strips_evalReference calls true operand scope).bind fun reference => ?_
        exact (recodes_deleteReference reference).bind fun _ => recodes_pure rfl
      · exact plain
    | _ => exact plain
  | update op side target =>
    simp only [Expr.stripAt, evalExpr]
    refine (strips_evalReference calls false target scope).bind fun reference => ?_
    refine (recodes_getReference reference).bind fun value => ?_
    refine (recodes_toNumber value).bind fun old => ?_
    refine (recodes_setReference reference (.number (updated op old))).bind fun _ => ?_
    cases side <;> exact recodes_pure rfl
  | binary op left right =>
    simp only [Expr.stripAt, evalExpr]
    refine (strips_evalExpr calls false left scope).bind fun first => ?_
    rw [Value.strip, Value.shortCircuits_recode]
    split
    · exact recodes_pure rfl
    · exact (strips_evalExpr calls false right scope).bind fun second =>
        recodes_binary op first second
  | conditional test consequent alternate =>
    simp only [Expr.stripAt, evalExpr]
    refine (strips_evalExpr calls false test scope).bind fun decision => ?_
    rw [Value.strip, Value.isTruthy_recode]
    split
    · exact strips_evalExpr calls false consequent scope
    · exact strips_evalExpr calls false alternate scope
  | assign target value =>
    simp only [Expr.stripAt, evalExpr]
    refine (strips_evalReference calls false target scope).bind fun reference => ?_
    refine (strips_evalExpr calls false value scope).bind fun result => ?_
    exact (recodes_setReference reference result).bind fun _ => recodes_pure rfl
  | assignWith op target value =>
    simp only [Expr.stripAt, evalExpr]
    refine (strips_evalReference calls false target scope).bind fun reference => ?_
    refine (recodes_getReference reference).bind fun current => ?_
    rw [Value.shortCircuits_recode]
    split
    · exact recodes_pure rfl
    · refine (strips_evalExpr calls false value scope).bind fun operand => ?_
      refine (recodes_binary op current operand).bind fun result => ?_
      exact (recodes_setReference reference result).bind fun _ => recodes_pure rfl
  | call callee arguments =>
    simp only [Expr.stripAt, evalExpr]
    refine (strips_resolve (strips_evalAccessed calls callee scope)
      (strips_evalExpr calls true callee scope)).bind fun resolved => ?_
    cases resolved with
    | none => exact recodes_pure rfl
    | some target =>
      refine (strips_asFunction _ _ target.value).bind fun function => ?_
      refine (strips_evalArguments calls arguments scope).bind fun values => ?_
      exact calls function target.receiver values
  | member owner property =>
    simp only [Expr.stripAt, evalExpr]
    exact (strips_evalExpr calls false owner scope).bind fun value =>
      recodes_getProperty value property
  | index owner key =>
    simp only [Expr.stripAt, evalExpr]
    refine (strips_evalExpr calls false owner scope).bind fun target => ?_
    refine (strips_evalExpr calls false key scope).bind fun name => ?_
    exact (recodes_display name).bind fun text => recodes_getProperty target text
  | optional owner access =>
    simp only [Expr.stripAt, evalExpr]
    refine (strips_evalExpr calls false owner scope).bind fun target => ?_
    rw [Value.strip, Value.isNullish_recode]
    split
    · exact recodes_pure rfl
    · exact (strips_evalAccess calls target access scope).bind fun _ => recodes_pure rfl
termination_by structural expr

/-- Parentheses around a callee stay, so an access is an access in both. -/
theorem strips_evalAccessed (calls : StripsCalls call call') (expr : Expr) (scope : FrameId) :
    Option.Rel (Strips (Option.map Callee.strip)) (evalAccessed call scope expr)
      (evalAccessed call' scope (expr.stripAt true)) := by
  cases expr with
  | member owner property =>
    refine .some ((strips_evalExpr calls false owner scope).bind fun value => ?_)
    exact (strips_memberCallee value property).bind fun _ => recodes_pure rfl
  | index owner key =>
    refine .some ((strips_evalExpr calls false owner scope).bind fun target => ?_)
    refine (strips_evalExpr calls false key scope).bind fun name => ?_
    refine (recodes_display name).bind fun text => ?_
    exact (strips_memberCallee target text).bind fun _ => recodes_pure rfl
  | optional owner access =>
    refine .some ((strips_evalExpr calls false owner scope).bind fun target => ?_)
    rw [Value.strip, Value.isNullish_recode]
    split
    · exact recodes_pure rfl
    · exact (strips_evalAccess calls target access scope).bind fun _ => recodes_pure rfl
  | _ => exact .none

theorem strips_evalAccess (calls : StripsCalls call call') (target : Value) (access : Access)
    (scope : FrameId) :
    Strips Callee.strip (evalAccess call scope target access)
      (evalAccess call' scope target.strip access.strip) := by
  cases access with
  | member property => exact strips_memberCallee target property
  | index key =>
    simp only [Access.strip, evalAccess]
    refine (strips_evalExpr calls false key scope).bind fun name => ?_
    exact (recodes_display name).bind fun text => strips_memberCallee target text
  | call arguments =>
    simp only [Access.strip, evalAccess]
    refine (strips_evalArguments calls arguments scope).bind fun values => ?_
    refine (strips_asFunction _ _ target).bind fun function => ?_
    exact (calls function none values).bind fun _ => recodes_pure rfl

theorem strips_evalReference (calls : StripsCalls call call') (kept : Bool) (expr : Expr)
    (scope : FrameId) :
    Strips (Reference.recode stripping) (evalReference call scope expr)
      (evalReference call' scope (expr.stripAt kept)) := by
  cases expr with
  | identifier name => exact recodes_pure rfl
  | parenthesized inner => cases kept <;> exact strips_evalReference calls false inner scope
  | member owner property =>
    simp only [Expr.stripAt, evalReference]
    exact (strips_evalExpr calls false owner scope).bind fun _ => recodes_pure rfl
  | index owner key =>
    simp only [Expr.stripAt, evalReference]
    refine (strips_evalExpr calls false owner scope).bind fun target => ?_
    refine (strips_evalExpr calls false key scope).bind fun name => ?_
    exact (recodes_display name).bind fun _ => recodes_pure rfl
  | _ =>
    -- the text of a target that is none does not show parentheses
    exact recodes_throw (congrArg (fun text => (Error.type (.invalidTarget text)).anonymous)
      (Expr.display_stripAt kept _))

theorem strips_evalSequence (calls : StripsCalls call call') (last : Value) (exprs : List Expr)
    (scope : FrameId) :
    Strips Value.strip (evalSequence call scope last exprs)
      (evalSequence call' scope last.strip (stripExprs exprs)) := by
  cases exprs with
  | nil => exact recodes_pure rfl
  | cons first rest =>
    exact (strips_evalExpr calls false first scope).bind fun value =>
      strips_evalSequence calls value rest scope

theorem strips_evalArguments (calls : StripsCalls call call') (arguments : List Argument)
    (scope : FrameId) :
    Strips (List.map Value.strip) (evalArguments call scope arguments)
      (evalArguments call' scope (stripArguments arguments)) := by
  match arguments with
  | [] => exact recodes_pure rfl
  | ⟨true, expr⟩ :: rest =>
    simp only [stripArguments, evalArguments]
    refine (strips_evalExpr calls false expr scope).bind fun value => ?_
    refine (recodes_spread value).bind fun values => ?_
    refine (strips_evalArguments calls rest scope).bind fun others => ?_
    exact recodes_pure List.map_append.symm
  | ⟨false, expr⟩ :: rest =>
    simp only [stripArguments, evalArguments]
    refine (strips_evalExpr calls false expr scope).bind fun value => ?_
    exact (strips_evalArguments calls rest scope).bind fun _ => recodes_pure rfl

theorem strips_evalElements (calls : StripsCalls call call') (elements : List Element)
    (scope : FrameId) :
    Strips (List.map (Option.map Value.strip)) (evalElements call scope elements)
      (evalElements call' scope (stripElements elements)) := by
  match elements with
  | [] => exact recodes_pure rfl
  | .hole :: rest =>
    simp only [stripElements, evalElements]
    exact (strips_evalElements calls rest scope).bind fun _ => recodes_pure rfl
  | .item expr :: rest =>
    simp only [stripElements, evalElements]
    refine (strips_evalExpr calls false expr scope).bind fun value => ?_
    exact (strips_evalElements calls rest scope).bind fun _ => recodes_pure rfl
  | .spread expr :: rest =>
    simp only [stripElements, evalElements]
    refine (strips_evalExpr calls false expr scope).bind fun value => ?_
    refine (recodes_spread value).bind fun values => ?_
    refine (strips_evalElements calls rest scope).bind fun items => ?_
    apply recodes_pure
    simp only [List.map_append, List.map_map]
    rfl

theorem strips_evalName (calls : StripsCalls call call') (name : PropertyName) (scope : FrameId) :
    Strips id (evalName call scope name) (evalName call' scope name.strip) := by
  cases name with
  | identifier _ | string _ | number _ => exact recodes_pure rfl
  | computed expr =>
    simp only [PropertyName.strip, evalName]
    exact (strips_evalExpr calls false expr scope).bind fun value => recodes_display value

theorem strips_evalProperties (calls : StripsCalls call call') (object : Object)
    (properties : List Property) (scope : FrameId) :
    Strips (Object.recode stripping) (evalProperties call scope object properties)
      (evalProperties call' scope (object.recode stripping) (stripProperties properties)) := by
  match properties with
  | [] => exact recodes_pure rfl
  | .value name expr :: rest =>
    simp only [stripProperties, evalProperties]
    refine (strips_evalName calls name scope).bind fun key => ?_
    refine (strips_evalExpr calls false expr scope).bind fun value => ?_
    rw [id_eq, Value.strip, Object.set_recode]
    exact strips_evalProperties calls (object.set key value) rest scope
  | .shorthand name :: rest =>
    simp only [stripProperties, evalProperties]
    refine (recodes_lookup scope name).bind fun value => ?_
    rw [Object.set_recode]
    exact strips_evalProperties calls (object.set name value) rest scope
  | .spread expr :: rest =>
    simp only [stripProperties, evalProperties]
    refine (strips_evalExpr calls false expr scope).bind fun value => ?_
    refine (recodes_properties value).bind fun source => ?_
    rw [Object.merge_recode]
    exact strips_evalProperties calls (object.merge source) rest scope
  | .method name definition :: rest =>
    simp only [stripProperties, evalProperties]
    refine (strips_evalName calls name scope).bind fun key => ?_
    refine (strips_closure scope definition).bind fun function => ?_
    rw [id_eq, Value.strip, Object.set_recode]
    exact strips_evalProperties calls (object.set key function) rest scope

theorem strips_evalSpans (calls : StripsCalls call call') (spans : List Span) (scope : FrameId) :
    Strips id (evalSpans call scope spans) (evalSpans call' scope (stripSpans spans)) := by
  match spans with
  | [] => exact recodes_pure rfl
  | ⟨_, expr, after⟩ :: rest =>
    simp only [stripSpans, evalSpans]
    refine (strips_evalExpr calls false expr scope).bind fun value => ?_
    refine (recodes_display value).bind fun text => ?_
    exact (strips_evalSpans calls rest scope).bind fun _ => recodes_pure rfl

end

/-! ## Statements -/

def Completion.strip : Completion → Completion
  | .normal value => .normal value.strip
  | .returned value => .returned value.strip

theorem strips_declare (scope : FrameId) (definition : FunctionDefinition) :
    Strips id (declare scope definition) (declare scope definition.strip) := by
  unfold declare
  rw [definition.name_strip]
  cases definition.name with
  | none => exact recodes_throw rfl
  | some name =>
    exact (recodes_newFunction (.script definition scope)).bind fun function =>
      recodes_define scope name function

theorem strips_hoist (scope : FrameId) (body : List Stmt) :
    Strips id (hoist scope body) (hoist scope (stripStmts body)) := by
  induction body with
  | nil => exact recodes_pure rfl
  | cons first rest ih =>
    cases first with
    | function definition => exact (strips_declare scope definition).bind fun _ => ih
    | _ => exact ih

theorem strips_returnValue (calls : StripsCalls call call') (scope : FrameId)
    (value : Option Expr) :
    Strips Value.strip (returnValue call scope value)
      (returnValue call' scope (stripOptionalExpr value)) := by
  cases value with
  | none => exact recodes_pure rfl
  | some expr => exact strips_evalExpr calls false expr scope

theorem strips_declareVariable (calls : StripsCalls call call') (scope : FrameId) (name : String)
    (init : Option Expr) :
    Strips id (declareVariable call scope ⟨name, init⟩)
      (declareVariable call' scope ⟨name, stripOptionalExpr init⟩) := by
  cases init with
  | some init =>
    exact (strips_evalExpr calls false init scope).bind fun value =>
      recodes_define scope name value
  | none =>
    refine (recodes_bindsLocally scope name).bind fun bound => ?_
    simp only [id_eq]
    split
    · exact recodes_pure rfl
    · exact recodes_define scope name .undefined

theorem strips_declareVariables (calls : StripsCalls call call') (scope : FrameId)
    (declarations : List Declaration) :
    Strips id (declareVariables call scope declarations)
      (declareVariables call' scope (stripDeclarations declarations)) := by
  induction declarations with
  | nil => exact recodes_pure rfl
  | cons first rest ih =>
    obtain ⟨name, init⟩ := first
    exact (strips_declareVariable calls scope name init).bind fun _ => ih

mutual

theorem strips_runStmt (calls : StripsCalls call call') (stmt : Stmt) (scope : FrameId) :
    Strips Completion.strip (runStmt call scope stmt) (runStmt call' scope stmt.strip) := by
  cases stmt with
  | block body =>
    simp only [Stmt.strip, runStmt]
    exact (strips_hoist scope body).bind fun _ => strips_runRest calls .undefined body scope
  | «variables» kind declarations =>
    simp only [Stmt.strip, runStmt]
    exact (strips_declareVariables calls scope declarations).bind fun _ => recodes_pure rfl
  | empty => exact recodes_pure rfl
  | expression expr =>
    simp only [Stmt.strip, runStmt]
    exact (strips_evalExpr calls false expr scope).bind fun _ => recodes_pure rfl
  | function definition =>
    simp only [Stmt.strip, runStmt]
    exact (strips_declare scope definition).bind fun _ => recodes_pure rfl
  | if_ test consequent alternate =>
    simp only [Stmt.strip, runStmt]
    refine (strips_evalExpr calls false test scope).bind fun decision => ?_
    rw [Value.strip, Value.isTruthy_recode]
    split
    · exact strips_runStmt calls consequent scope
    · exact strips_runOptional calls alternate scope
  | return_ value =>
    simp only [Stmt.strip, runStmt]
    exact (strips_returnValue calls scope value).bind fun _ => recodes_pure rfl
  | _ => exact recodes_throw rfl
termination_by structural stmt

theorem strips_runOptional (calls : StripsCalls call call') (stmt? : Option Stmt)
    (scope : FrameId) :
    Strips Completion.strip (runOptional call scope stmt?)
      (runOptional call' scope (stripOptionalStmt stmt?)) := by
  cases stmt? with
  | none => exact recodes_pure rfl
  | some stmt => exact strips_runStmt calls stmt scope

theorem strips_runRest (calls : StripsCalls call call') (last : Value) (body : List Stmt)
    (scope : FrameId) :
    Strips Completion.strip (runRest call scope last body)
      (runRest call' scope last.strip (stripStmts body)) := by
  cases body with
  | nil => exact recodes_pure rfl
  | cons first rest =>
    have run : Strips Completion.strip
        (do match ← runStmt call scope first with
          | .normal value => runRest call scope value rest
          | .returned value => return .returned value)
        (do match ← runStmt call' scope first.strip with
          | .normal value => runRest call' scope value (stripStmts rest)
          | .returned value => return .returned value) := by
      refine (strips_runStmt calls first scope).bind fun completion => ?_
      cases completion with
      | normal value => exact strips_runRest calls value rest scope
      | returned value => exact recodes_pure rfl
    cases first with
    | function definition => exact strips_runRest calls last rest scope
    | _ => exact run

end

theorem strips_runStmts (calls : StripsCalls call call') (scope : FrameId) (body : List Stmt) :
    Strips Completion.strip (runStmts call scope body) (runStmts call' scope (stripStmts body)) :=
  (strips_hoist scope body).bind fun _ => strips_runRest calls .undefined body scope

/-! ## Calls -/

theorem strips_bindParams (scope : FrameId) (names : List String) (values : List Value) :
    Strips id (bindParams scope names values)
      (bindParams scope names (values.map Value.strip)) := by
  induction names generalizing values with
  | nil => exact recodes_pure rfl
  | cons name names ih =>
    cases values with
    | nil => exact (recodes_define scope name .undefined).bind fun _ => ih []
    | cons value values => exact (recodes_define scope name value).bind fun _ => ih values

theorem strips_callScope (scope : FrameId) (params : List String) (receiver : Option Value)
    (arguments : List Value) :
    Strips id (callScope scope params receiver arguments)
      (callScope scope params (receiver.map Value.strip) (arguments.map Value.strip)) := by
  refine (recodes_newScope scope).bind fun frame => ?_
  have bound : Strips id (bindThis frame receiver) (bindThis frame (receiver.map Value.strip)) := by
    cases receiver with
    | none => exact recodes_pure rfl
    | some value => exact recodes_define frame "this" value
  refine bound.bind fun _ => ?_
  exact (strips_bindParams frame params arguments).bind fun _ => recodes_pure rfl

theorem strips_callBody (calls : StripsCalls call call') (definition : FunctionDefinition)
    (scope : FrameId) (receiver : Option Value) (arguments : List Value) :
    Strips Value.strip (callBody call definition scope receiver arguments)
      (callBody call' definition.strip scope (receiver.map Value.strip)
        (arguments.map Value.strip)) := by
  obtain ⟨name, params, body, isGenerator⟩ := definition
  refine (strips_callScope scope params receiver arguments).bind fun frame => ?_
  refine (strips_runStmts calls frame body).bind fun completion => ?_
  cases completion <;> exact recodes_pure rfl

theorem stripsCalls_callStep (limit : Nat) (calls : StripsCalls call call') :
    StripsCalls (callStep limit call) (callStep limit call') := by
  intro function receiver arguments
  cases function with
  | native name behaviour => exact recodes_callNative behaviour arguments
  | script definition scope =>
    have body := strips_callBody calls definition scope receiver arguments
    obtain ⟨name, params, stmts, isGenerator⟩ := definition
    cases isGenerator with
    | true => exact recodes_throw rfl
    | false => exact body.withCall limit

/-- The induction is on the calls that may be inside one another. -/
theorem stripsCalls_callFunction (limit room : Nat) :
    StripsCalls (callFunction limit room) (callFunction limit room) := by
  induction room with
  | zero => exact fun _ _ _ => recodes_throw rfl
  | succ room ih => exact stripsCalls_callStep limit ih

end Eval

/-! ## Scripts -/

/-- How a run ended, with the parentheses taken out of the code of all functions, and
without the text of a callee that is no function. -/
def stripped : EStateM.Result Error Machine Value → EStateM.Result Error Machine Value :=
  recoded stripping Value.strip

theorem strips_runProgram (limit : Nat) (scope : FrameId) (program : Program)
    (machine : Machine) :
    anonymous (runProgram limit scope program.strip machine.strip) =
      stripped (runProgram limit scope program machine) := by
  have calls := stripsCalls_callFunction limit (callRoom limit machine)
  have run : Strips Value.strip
      (Completion.value <$>
        runStmts (callFunction limit (callRoom limit machine)) scope program.body)
      (Completion.value <$>
        runStmts (callFunction limit (callRoom limit machine)) scope program.strip.body) := by
    rw [map_eq_pure_bind, map_eq_pure_bind]
    refine (strips_runStmts calls scope program.body).bind fun completion => ?_
    cases completion <;> exact recodes_pure rfl
  exact run machine

/-- A script without parentheses runs as the script does. From the same machine, and for
any two scripts that differ only in parentheses that are looked through, the runs end alike:
with the same output, and with the same value or error and the same machine once the code of
functions is stripped. From a machine that is stripped itself, the stripped script ends with
what the script ends with, stripped. -/
theorem parentheses_are_transparent (limit : Nat) (scope : FrameId) (program : Program)
    (machine : Machine) :
    stripped (runProgram limit scope program.strip machine) =
        stripped (runProgram limit scope program machine) ∧
      (∀ other : Program, other.strip = program.strip →
        stripped (runProgram limit scope other machine) =
          stripped (runProgram limit scope program machine)) ∧
      anonymous (runProgram limit scope program.strip machine.strip) =
        stripped (runProgram limit scope program machine) := by
  have alike (other : Program) (same : other.strip = program.strip) :
      stripped (runProgram limit scope other machine) =
        stripped (runProgram limit scope program machine) := by
    rw [← strips_runProgram, ← strips_runProgram, same]
  refine ⟨alike program.strip program.strip_strip, alike, ?_⟩
  exact strips_runProgram limit scope program machine

/-- `var f = (function (x) \x7b return (x) \x7d); ((f))("a"); (console).g()` -/
def wrapped : Program :=
  ⟨[.variables .var [⟨"f", some (.parenthesized (.function
      ⟨none, ["x"], [.return_ (some (.parenthesized (.identifier "x")))], false⟩))⟩],
    .expression (.call (.parenthesized (.parenthesized (.identifier "f"))) [⟨false, .string "a"⟩]),
    .expression (.call (.member (.parenthesized (.identifier "console")) "g") [])]⟩

/-- `var f = function (x) \x7b return x \x7d; (f)("a"); console.g()` -/
def unwrapped : Program :=
  ⟨[.variables .var [⟨"f", some (.function
      ⟨none, ["x"], [.return_ (some (.identifier "x"))], false⟩)⟩],
    .expression (.call (.parenthesized (.identifier "f")) [⟨false, .string "a"⟩]),
    .expression (.call (.member (.identifier "console") "g") [])]⟩

/-- The two end with errors that name the callee differently, and alike otherwise. -/
theorem wrapped_runs_alike :
    wrapped.strip = unwrapped ∧
      (∃ after, runProgram 4 Engine.global wrapped (Engine.new 4 .unlimited).machine =
        .error (.type (.notFunction "expression.g" "undefined")) after) ∧
      (∃ after, runProgram 4 Engine.global unwrapped (Engine.new 4 .unlimited).machine =
        .error (.type (.notFunction "console.g" "undefined")) after) ∧
      stripped (runProgram 4 Engine.global unwrapped (Engine.new 4 .unlimited).machine) =
        stripped (runProgram 4 Engine.global wrapped (Engine.new 4 .unlimited).machine) :=
  ⟨rfl, ⟨_, rfl⟩, ⟨_, rfl⟩,
    (parentheses_are_transparent 4 Engine.global wrapped _).2.1 unwrapped rfl⟩

end Scriptlet
