import Scriptlet.Eval.Stmt
import Scriptlet.Grammar.Nesting

/-!
# Engines

An engine runs scripts one after the other on the same machine. Its outermost frame has
the variables `undefined` and `console`.
-/

namespace Scriptlet

/-- A machine that runs scripts, with a limit on open calls. -/
structure Engine where
  limit : Nat
  machine : Machine

namespace Engine

/-- The number of calls that may be open, unless an embedder says otherwise. -/
def defaultLimit : Nat := 100

/-- The outermost frame. -/
def global : FrameId := 0

/-- A store with the built-in variables. -/
def initialStore : Store :=
  let console := Object.empty.set "log" (.function 0 (.native "log" .log))
  let store := ((Store.empty.addFrame none).addFunction).addObject console
  (store.define global "undefined" .undefined).define global "console" (.object 0)

/-- A new engine. -/
def new (limit : Nat) (sink : Sink) : Engine :=
  ⟨limit, ⟨initialStore, sink, 0⟩⟩

/-- Runs a computation on the machine of an engine. -/
def perform {α : Type} (engine : Engine) (run : Eval α) : Except Error α × Engine :=
  match run engine.machine with
  | .ok value machine => (.ok value, { engine with machine })
  | .error error machine => (.error error, { engine with machine })

/-- Runs a script. -/
def evaluate (engine : Engine) (code : String) : Except Error Value × Engine :=
  match Program.parse code with
  | .error error => (.error error, engine)
  | .ok program => engine.perform (Eval.runProgram engine.limit global program)

/-- Calls a function from outside. -/
def call (engine : Engine) (function : Function) (receiver : Option Value)
    (arguments : List Value) : Except Error Value × Engine :=
  engine.perform (Eval.callWithin engine.limit function receiver arguments)

/-- The output of a script in a new engine. -/
def run (code : String) : Except Error String :=
  match (new defaultLimit .unlimited).evaluate code with
  | (.error error, _) => .error error
  | (.ok _, engine) => .ok engine.machine.sink.text

end Engine
end Scriptlet
