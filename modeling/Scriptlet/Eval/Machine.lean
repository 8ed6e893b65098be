import Scriptlet.Eval.Operator
import Scriptlet.Eval.Sink
import Scriptlet.Store.Reference

/-!
# The machine

Evaluation changes a machine: a store, a sink for output, and a count of the calls that are
open. The machine outlives an error. Evaluation touches it only through the operations of
this module.
-/

namespace Scriptlet

/-- What evaluation works on. -/
structure Machine where
  store : Store
  sink : Sink
  /-- How many functions of the script are being called. -/
  openCalls : Nat

/-- A computation on a machine. -/
abbrev Eval := EStateM Error Machine

namespace Eval

variable {α : Type}

/-- Goes on with a result that does not depend on the machine. -/
def ofExcept : Except Error α → Eval α
  | .ok value => pure value
  | .error error => throw error

/-- Reads the store. -/
def reading (read : Store → Except Error α) : Eval α := fun machine =>
  match read machine.store with
  | .ok value => .ok value machine
  | .error error => .error error machine

/-- Changes the store. -/
def changing (change : Store → α × Store) : Eval α := fun ⟨store, sink, openCalls⟩ =>
  let (value, store) := change store
  .ok value ⟨store, sink, openCalls⟩

/-- Changes the store, unless the change fails. -/
def attempting (change : Store → Except Error (α × Store)) : Eval α := fun machine =>
  match change machine.store with
  | .ok (value, store) => .ok value { machine with store }
  | .error error => .error error machine

/-! ## Variables -/

/-- The value of a name. -/
def lookup (scope : FrameId) (name : String) : Eval Value :=
  reading (·.lookup scope name)

/-- Whether a name means a variable. -/
def binds (scope : FrameId) (name : String) : Eval Bool :=
  reading fun store => .ok (store.binds scope name)

/-- Whether a frame itself has a variable of this name. -/
def bindsLocally (scope : FrameId) (name : String) : Eval Bool :=
  reading fun store => .ok (store.bindsLocally scope name)

/-- Gives a frame a variable. -/
def define (scope : FrameId) (name : String) (value : Value) : Eval Unit :=
  changing fun store => ((), store.define scope name value)

/-- Makes a frame inside a scope. -/
def newScope (parent : FrameId) : Eval FrameId :=
  changing fun store => (store.nextFrame, store.addFrame (some parent))

/-! ## Objects and functions -/

/-- Makes an object. -/
def newObject (object : Object) : Eval Value :=
  changing fun store => (.object store.nextObject, store.addObject object)

/-- Makes an array of the items of a literal. There may be more than can be counted. -/
def newArray (items : List (Option Value)) : Eval Value :=
  match Object.ofElements? items with
  | some object => changing fun store => (.array store.nextObject, store.addObject object)
  | none => throw .overflow

theorem newArray_eq (items : List (Option Value)) :
    newArray items =
      if items.length ≤ Key.indexBound then
        changing fun store => (.array store.nextObject, store.addObject (.ofElements items))
      else throw .overflow := by
  rw [newArray, Object.ofElements?_eq]
  by_cases few : items.length ≤ Key.indexBound
  · rw [if_pos few, if_pos few]
  · rw [if_neg few, if_neg few]

/-- Makes a function. -/
def newFunction (function : Function) : Eval Value :=
  changing fun store => (.function store.functions function, store.addFunction)

/-- The value of a property. -/
def getProperty (value : Value) (key : String) : Eval Value :=
  reading (·.getProperty value key)

/-- The properties of an object or array; other values have none. -/
def properties (value : Value) : Eval Object :=
  reading fun store => .ok ((value.object?.map store.objectAt).getD .empty)

/-- The elements of an array that is spread. -/
def spread (value : Value) : Eval (List Value) :=
  reading (·.spread value)

/-! ## References -/

/-- The value of a reference. -/
def getReference (reference : Reference) : Eval Value :=
  reading reference.get

/-- Gives a reference a value. -/
def setReference (reference : Reference) (value : Value) : Eval Unit :=
  attempting fun store => (reference.set store value).map ((), ·)

/-- Takes a property out. -/
def deleteReference (reference : Reference) : Eval Bool :=
  attempting reference.delete

/-! ## Operators -/

/-- A value as text, which is also the key that it stands for. -/
def display (value : Value) : Eval String :=
  reading fun store => .ok (store.display value)

/-- What a binary operator makes of two values. -/
def binary (op : BinaryOp) (left right : Value) : Eval Value :=
  reading (·.binary op left right)

/-- What an operator in front of an operand makes of its value. -/
def unary (op : UnaryOp) (operand : Value) : Eval Value :=
  ofExcept (operand.unary op)

/-- The number that arithmetic takes a value for. -/
def toNumber (value : Value) : Eval Float :=
  ofExcept value.toNumber

/-! ## Calls and output -/

/-- Runs the body of a call, unless `limit` calls are open. -/
def withCall (limit : Nat) (body : Eval α) : Eval α := fun machine =>
  if limit ≤ machine.openCalls then .error (.tooDeep limit) machine
  else
    match body { machine with openCalls := machine.openCalls + 1 } with
    | .ok value after => .ok value { after with openCalls := after.openCalls - 1 }
    | .error error after => .error error { after with openCalls := after.openCalls - 1 }

/-- Writes a line of output. -/
def writeLine (line : String) : Eval Unit := fun machine =>
  match machine.sink.log line with
  | (some reason, sink) => .error (.output reason) { machine with sink }
  | (none, sink) => .ok () { machine with sink }

/-- Calls a function of the host. It gives its answer after all its lines were written. -/
def callNative (behaviour : Callback) (arguments : List Value) : Eval Value := do
  let deed ← reading fun store => .ok (behaviour (arguments.map store.look))
  deed.lines.forM writeLine
  ofExcept (deed.answer.map (Answer.value arguments))

end Eval
end Scriptlet
