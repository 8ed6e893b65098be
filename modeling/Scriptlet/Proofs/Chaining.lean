import Mathlib.Tactic.Common
import Scriptlet.Engine

/-!
# Calls and optional chains

A callee that reads a property passes the object on to the call, as its receiver; the value of
a callee is the same whether it is called or not. So `c(…)` and `c?.(…)` call the same
function with the same arguments if there is one, but only the first with a receiver.
A chain that ends at null or undefined skips the call right behind it. Whatever else follows
is applied to undefined, and fails.
-/

namespace Scriptlet

open Eval

variable {call : Call} {scope : FrameId} {machine after : Machine}

/-! ## One computation after another -/

namespace Eval

variable {α β : Type} {x : Eval α} {value : α} {error : Error}

theorem bind_of_ok (ends : x machine = .ok value after) (next : α → Eval β) :
    (x >>= next) machine = next value after := by
  show EStateM.bind x next machine = _
  unfold EStateM.bind
  rw [ends]

theorem bind_of_error (fails : x machine = .error error after) (next : α → Eval β) :
    (x >>= next) machine = .error error after := by
  show EStateM.bind x next machine = _
  unfold EStateM.bind
  rw [fails]

theorem bind_eq_ok {next : α → Eval β} {result : β}
    (ends : (x >>= next) machine = .ok result after) :
    ∃ value middle, x machine = .ok value middle ∧ next value middle = .ok result after := by
  cases first : x machine with
  | ok value middle =>
    rw [bind_of_ok first] at ends
    exact ⟨value, middle, rfl, ends⟩
  | error error middle =>
    rw [bind_of_error first] at ends
    cases ends

/-! ## What is called -/

/-- The value of what a call goes to. -/
def calledValue (callee? : Option Callee) : Value :=
  (callee?.map Callee.value).getD .undefined

/-- The value of a callee is the same whether it is called or not. -/
theorem evalExpr_eq_evalCallee (call : Call) (scope : FrameId) (callee : Expr) :
    evalExpr call scope callee = calledValue <$> evalCallee call scope callee := by
  cases callee with
  | member object property | index object key =>
    simp [evalCallee, evalAccessed, evalExpr, resolve, memberCallee, calledValue]
  | optional object access =>
    simp only [evalCallee, evalAccessed, evalExpr, resolve, map_bind]
    congr 1
    funext target
    split
    · rfl
    · simp [calledValue]
  | _ => simp [evalCallee, evalAccessed, resolve, calledValue]

theorem evalCallee_of_ok {callee : Expr} {value : Value}
    (evaluates : evalExpr call scope callee machine = .ok value after) :
    ∃ callee?, evalCallee call scope callee machine = .ok callee? after ∧
      calledValue callee? = value := by
  rw [evalExpr_eq_evalCallee, map_eq_pure_bind] at evaluates
  obtain ⟨callee?, middle, resolves, isValue⟩ := bind_eq_ok evaluates
  cases isValue
  exact ⟨callee?, resolves, rfl⟩

theorem evalCallee_of_error {callee : Expr}
    (fails : evalExpr call scope callee machine = .error error after) :
    evalCallee call scope callee machine = .error error after := by
  rw [evalExpr_eq_evalCallee, map_eq_pure_bind] at fails
  cases resolves : evalCallee call scope callee machine with
  | ok callee? middle =>
    rw [bind_of_ok resolves] at fails
    cases fails
  | error error middle =>
    rw [bind_of_error resolves] at fails
    cases fails
    rfl

/-- What is done with the callee of a call. -/
def callResolved (call : Call) (scope : FrameId) (name : String) (arguments : List Argument) :
    Option Callee → Eval Value
  | none => return .undefined
  | some target => do
    let function ← asFunction name target.value
    let values ← evalArguments call scope arguments
    call function target.receiver values

theorem evalExpr_call (call : Call) (scope : FrameId) (callee : Expr)
    (arguments : List Argument) :
    evalExpr call scope (.call callee arguments) =
      evalCallee call scope callee >>= callResolved call scope (calleeName callee) arguments := by
  rw [evalExpr, evalCallee]
  rfl

end Eval

/-- The expression whose value a callee reads a property of, if it reads one. -/
def Expr.owner? : Expr → Option Expr
  | .member owner _ | .index owner _ => some owner
  | .optional owner (.member _) | .optional owner (.index _) => some owner
  | _ => none

namespace Eval

/-- The receiver that a callee brings along: the object whose property it reads, or none if it
reads no property. -/
def Brings (call : Call) (scope : FrameId) (machine : Machine) (callee : Expr) :
    Option Value → Prop
  | none => callee.owner? = none
  | some owner => ∃ object ∈ callee.owner?, ∃ middle,
    evalExpr call scope object machine = .ok owner middle

theorem memberCallee_receiver {object : Value} {key : String} {target : Callee}
    (reads : memberCallee object key machine = .ok target after) :
    target.receiver = some object := by
  obtain ⟨value, middle, -, isTarget⟩ := bind_eq_ok reads
  cases isTarget
  rfl

/-- Behind `?.`, only a property leaves a receiver. -/
theorem evalAccess_receiver {object : Value} {access : Access} {target : Callee}
    (reads : evalAccess call scope object access machine = .ok target after) :
    target.receiver = match access with
      | .call _ => none
      | _ => some object := by
  cases access with
  | member property => exact memberCallee_receiver reads
  | index key =>
    obtain ⟨value, middle, -, reads⟩ := bind_eq_ok reads
    obtain ⟨text, last, -, reads⟩ := bind_eq_ok reads
    exact memberCallee_receiver reads
  | call arguments =>
    obtain ⟨values, middle, -, reads⟩ := bind_eq_ok reads
    obtain ⟨function, last, -, reads⟩ := bind_eq_ok reads
    obtain ⟨result, final, -, isTarget⟩ := bind_eq_ok reads
    cases isTarget
    rfl

theorem evalCallee_brings {callee : Expr} {target : Callee}
    (resolves : evalCallee call scope callee machine = .ok (some target) after) :
    Brings call scope machine callee target.receiver := by
  cases callee with
  | member object property =>
    obtain ⟨owner, middle, evaluates, reads⟩ := bind_eq_ok resolves
    obtain ⟨found, last, reads, isTarget⟩ := bind_eq_ok reads
    cases isTarget
    rw [memberCallee_receiver reads]
    exact ⟨object, rfl, middle, evaluates⟩
  | index object key =>
    obtain ⟨owner, middle, evaluates, reads⟩ := bind_eq_ok resolves
    obtain ⟨value, second, -, reads⟩ := bind_eq_ok reads
    obtain ⟨text, third, -, reads⟩ := bind_eq_ok reads
    obtain ⟨found, last, reads, isTarget⟩ := bind_eq_ok reads
    cases isTarget
    rw [memberCallee_receiver reads]
    exact ⟨object, rfl, middle, evaluates⟩
  | optional object access =>
    obtain ⟨owner, middle, evaluates, reads⟩ := bind_eq_ok resolves
    split at reads
    · cases reads
    · obtain ⟨found, last, reads, isTarget⟩ := bind_eq_ok reads
      cases isTarget
      rw [evalAccess_receiver reads]
      cases access with
      | call arguments => rfl
      | member property | index key => exact ⟨object, rfl, middle, evaluates⟩
  | _ =>
    unfold evalCallee resolve evalAccessed at resolves
    rw [map_eq_pure_bind] at resolves
    obtain ⟨value, middle, -, isTarget⟩ := bind_eq_ok resolves
    cases isTarget
    rfl

/-! ## The two calls -/

/-- A function that is found is called with the arguments and the receiver. -/
theorem evalExpr_call_of_function {callee : Expr} {id : Nat} {function : Function}
    {receiver : Option Value} (arguments : List Argument)
    (resolves : evalCallee call scope callee machine =
      .ok (some ⟨.function id function, receiver⟩) after) :
    evalExpr call scope (.call callee arguments) machine =
      (evalArguments call scope arguments >>= call function receiver) after := by
  rw [evalExpr_call, bind_of_ok resolves]
  rfl

/-- Behind `?.`, the same function is called without a receiver. -/
theorem evalExpr_optionalCall_of_function {callee : Expr} {id : Nat} {function : Function}
    (arguments : List Argument)
    (evaluates : evalExpr call scope callee machine = .ok (.function id function) after) :
    evalExpr call scope (.optional callee (.call arguments)) machine =
      (evalArguments call scope arguments >>= call function none) after := by
  rw [evalExpr, bind_of_ok evaluates]
  simp [Value.isNullish, evalAccess, asFunction]

/-- Functions of the host are not told a receiver. -/
theorem callFunction_native (limit room : Nat) (name : String) (behaviour : Callback)
    (receiver : Option Value) :
    callFunction limit room (.native name behaviour) receiver =
      callFunction limit room (.native name behaviour) none := by
  cases room <;> rfl

end Eval

/-- If a callee is a function, a call and an optional call do the same with it, except that
only the plain one tells the function the object whose property it is. So they end alike if
the callee reads no property, and if the function is one of the host. -/
theorem optional_call_drops_receiver {limit room : Nat} {callee : Expr} {id : Nat}
    {function : Function} (arguments : List Argument)
    (found : evalExpr (callFunction limit room) scope callee machine =
      .ok (.function id function) after) :
    (∃ receiver, Brings (callFunction limit room) scope machine callee receiver ∧
        evalExpr (callFunction limit room) scope (.call callee arguments) machine =
          (evalArguments (callFunction limit room) scope arguments >>=
            callFunction limit room function receiver) after) ∧
      evalExpr (callFunction limit room) scope (.optional callee (.call arguments)) machine =
        (evalArguments (callFunction limit room) scope arguments >>=
          callFunction limit room function none) after ∧
      (callee.owner? = none ∨ (∃ name behaviour, function = .native name behaviour) →
        evalExpr (callFunction limit room) scope (.optional callee (.call arguments)) machine =
          evalExpr (callFunction limit room) scope (.call callee arguments) machine) := by
  obtain ⟨callee?, resolves, isFunction⟩ := evalCallee_of_ok found
  obtain _ | ⟨value, receiver⟩ := callee?
  · cases isFunction
  cases isFunction
  have brings := evalCallee_brings resolves
  have plain := evalExpr_call_of_function arguments resolves
  have optional := evalExpr_optionalCall_of_function arguments found
  refine ⟨⟨receiver, brings, plain⟩, optional, ?_⟩
  rw [plain, optional]
  rintro (unowned | ⟨name, behaviour, rfl⟩)
  · cases receiver with
    | none => rfl
    | some owner =>
      obtain ⟨object, owns, -⟩ := brings
      rw [unowned] at owns
      cases owns
  · rw [callFunction_native limit room name behaviour receiver]

/-- The method of an object, which returns the object. -/
def selfMethod : Expr :=
  .member (.object [.method (.identifier "self") ⟨none, [], [.return_ (some .this)], false⟩]) "self"

/-- A machine with nothing but the built-in variables. -/
def idleMachine : Machine := ⟨Engine.initialStore, .unlimited, 0⟩

/-- The method is called on its object, and behind `?.` on nothing. -/
theorem selfMethod_called :
    ∃ function receiver after,
      evalExpr (callFunction 4 2) Engine.global selfMethod idleMachine =
          .ok (.function 1 function) after ∧
        evalExpr (callFunction 4 2) Engine.global (.call selfMethod []) idleMachine =
          callFunction 4 2 function (some receiver) [] after ∧
        evalExpr (callFunction 4 2) Engine.global (.optional selfMethod (.call [])) idleMachine =
          callFunction 4 2 function none [] after := by
  have found : evalExpr (callFunction 4 2) Engine.global selfMethod idleMachine =
      .ok (.function 1 _) _ := rfl
  obtain ⟨⟨receiver, brings, plain⟩, optional, -⟩ := optional_call_drops_receiver [] found
  cases receiver with
  | none => cases brings
  | some owner => exact ⟨_, owner, _, found, plain, optional⟩

/-- A script that calls the same method in both ways. -/
def callsBothWays : String :=
  "var o = {v: 1, f: function () { return this.v }}; console.log(o.f(), o.f?.())"

/-- Behind `?.` the method does not find its object. -/
theorem calls_differ :
    ((Engine.new 4 .unlimited).evaluate callsBothWays).2.machine.sink.lines =
      #["1 undefined"] := by
  decide +kernel

/-! ## Chains -/

/-- An expression with an access behind it. -/
def Access.of (object : Expr) : Access → Expr
  | .member property => .member object property
  | .index key => .index object key
  | .call arguments => .call object arguments

/-- An expression with accesses behind it, from left to right. -/
def Expr.chain (start : Expr) (accesses : List Access) : Expr :=
  accesses.foldl Access.of start

/-- What an ended chain still applies to undefined: all accesses, but not a call that comes
first. -/
def beyondCall : List Access → List Access
  | .call _ :: rest => rest
  | accesses => accesses

namespace Eval

variable {object : Expr} {error : Error}

/-- An access of undefined. -/
def accessUndefined (call : Call) (scope : FrameId) : Access → Eval Value
  | .member property => getProperty .undefined property
  | .index key => do
    getProperty .undefined (← display (← evalExpr call scope key))
  | .call _ => throw (.type (.notFunction "expression" "undefined"))

theorem accessUndefined_fails (call : Call) (scope : FrameId) (access : Access)
    (machine : Machine) :
    ∃ error after, accessUndefined call scope access machine = .error error after := by
  cases access with
  | member property => exact ⟨_, _, rfl⟩
  | call arguments => exact ⟨_, _, rfl⟩
  | index key =>
    cases ends : accessUndefined call scope (.index key) machine with
    | error error after => exact ⟨error, after, rfl⟩
    | ok value after =>
      obtain ⟨key, second, -, reads⟩ := bind_eq_ok ends
      obtain ⟨text, third, -, reads⟩ := bind_eq_ok reads
      cases reads

/-- An error passes through whatever is behind it. -/
theorem evalExpr_access_of_error (access : Access)
    (fails : evalExpr call scope object machine = .error error after) :
    evalExpr call scope (access.of object) machine = .error error after := by
  cases access with
  | member property | index key => rw [Access.of, evalExpr, bind_of_error fails]
  | call arguments =>
    rw [Access.of, evalExpr_call, bind_of_error (evalCallee_of_error fails)]

theorem evalExpr_chain_of_error (accesses : List Access)
    (fails : evalExpr call scope object machine = .error error after) :
    evalExpr call scope (object.chain accesses) machine = .error error after := by
  induction accesses generalizing object with
  | nil => exact fails
  | cons access rest ih => exact ih (evalExpr_access_of_error access fails)

/-- A chain whose next access is one of undefined fails as this access does. -/
theorem evalExpr_chain_of_undefined {access : Access} (rest : List Access)
    (reaches : evalExpr call scope (access.of object) machine =
      accessUndefined call scope access after) :
    ∃ error final, accessUndefined call scope access after = .error error final ∧
      evalExpr call scope (object.chain (access :: rest)) machine = .error error final := by
  obtain ⟨error, final, fails⟩ := accessUndefined_fails call scope access after
  exact ⟨error, final, fails, evalExpr_chain_of_error rest (reaches.trans fails)⟩

theorem evalExpr_access_of_undefined {access : Access}
    (evaluates : evalExpr call scope object machine = .ok .undefined after)
    (plain : (∀ arguments, access ≠ .call arguments) ∨
      ∃ callee arguments, object = .call callee arguments) :
    evalExpr call scope (access.of object) machine =
      accessUndefined call scope access after := by
  cases access with
  | member property | index key =>
    rw [Access.of, evalExpr, bind_of_ok evaluates]
    rfl
  | call arguments =>
    obtain property | ⟨callee, earlier, rfl⟩ := plain
    · exact absurd rfl (property arguments)
    -- A call as callee has no receiver, and is no optional chain that could end.
    have unaccessed : evalAccessed call scope (.call callee earlier) = none := rfl
    have resolves : evalCallee call scope (.call callee earlier) machine =
        .ok (some ⟨.undefined, none⟩) after := by
      rw [evalCallee, unaccessed, resolve, map_eq_pure_bind, bind_of_ok evaluates]
      rfl
    rw [Access.of, evalExpr_call, bind_of_ok resolves]
    rfl

/-! ## Chains that end -/

theorem evalExpr_optional_of_nullish {value : Value} (access : Access)
    (found : evalExpr call scope object machine = .ok value after)
    (ends : value.isNullish = true) :
    evalExpr call scope (.optional object access) machine = .ok .undefined after := by
  rw [evalExpr, bind_of_ok found, if_pos ends]
  rfl

theorem evalExpr_call_optional_of_nullish {value : Value} (access : Access)
    (arguments : List Argument) (found : evalExpr call scope object machine = .ok value after)
    (ends : value.isNullish = true) :
    evalExpr call scope (.call (.optional object access) arguments) machine =
      .ok .undefined after := by
  have resolves : evalCallee call scope (.optional object access) machine = .ok none after := by
    rw [evalCallee, evalAccessed, resolve, bind_of_ok found, if_pos ends]
    rfl
  rw [evalExpr_call, bind_of_ok resolves]
  rfl

end Eval

/-- An optional chain that ends at null or undefined evaluates nothing behind its `?.` if no
access or only one call follows. Else it goes on with undefined behind that call, and fails with
what the next access of undefined fails with. -/
theorem ended_chain_skips_one_call {object : Expr} {value : Value}
    (found : evalExpr call scope object machine = .ok value after)
    (ends : value.isNullish = true) (access : Access) (accesses : List Access) :
    match beyondCall accesses with
    | [] => evalExpr call scope ((Expr.optional object access).chain accesses) machine =
        .ok .undefined after
    | next :: _ => ∃ error final, accessUndefined call scope next after = .error error final ∧
        evalExpr call scope ((Expr.optional object access).chain accesses) machine =
          .error error final := by
  have ended := evalExpr_optional_of_nullish access found ends
  match accesses with
  | [] => exact ended
  | [.call arguments] => exact evalExpr_call_optional_of_nullish access arguments found ends
  | .call arguments :: next :: rest =>
    have skipped := evalExpr_call_optional_of_nullish access arguments found ends
    exact evalExpr_chain_of_undefined rest (evalExpr_access_of_undefined skipped (.inr ⟨_, _, rfl⟩))
  | .member property :: rest | .index key :: rest =>
    exact evalExpr_chain_of_undefined rest (evalExpr_access_of_undefined ended (.inl nofun))

/-- In `null?.a(b)` and `null?.a(b)["c"].d`, the name `b` has no value but is not read. -/
theorem ended_at_null :
    evalExpr (callFunction 4 2) Engine.global
        ((Expr.optional .null (.member "a")).chain [.call [⟨false, .identifier "b"⟩]])
        idleMachine = .ok .undefined idleMachine ∧
      ∃ error final,
        accessUndefined (callFunction 4 2) Engine.global (.index (.string "c")) idleMachine =
            .error error final ∧
          evalExpr (callFunction 4 2) Engine.global
              ((Expr.optional .null (.member "a")).chain
                [.call [⟨false, .identifier "b"⟩], .index (.string "c"), .member "d"])
              idleMachine = .error error final := by
  have found : evalExpr (callFunction 4 2) Engine.global .null idleMachine =
      .ok .null idleMachine := rfl
  exact ⟨ended_chain_skips_one_call found rfl (.member "a") [.call [⟨false, .identifier "b"⟩]],
    ended_chain_skips_one_call found rfl (.member "a")
      [.call [⟨false, .identifier "b"⟩], .index (.string "c"), .member "d"]⟩

/-- Behind an ended chain a property is still read, and its key computed. -/
theorem ended_chain_fails :
    ((Engine.new 4 .unlimited).evaluate "var a = null; a?.x.y").1.toBool = false ∧
      ((Engine.new 4 .unlimited).evaluate
        "var a = null; a?.x[console.log('seen')]").2.machine.sink.lines = #["seen"] := by
  decide +kernel

end Scriptlet
