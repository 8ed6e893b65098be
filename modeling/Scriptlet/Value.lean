import Scriptlet.Expr
import Scriptlet.Host
import Scriptlet.Number.Format

/-!
# Values

The values that scripts compute with. Objects and arrays are places in a store, functions
have an identity of their own; both are shared by every value that refers to them.
-/

namespace Scriptlet

/-- The place of a scope frame in a store. -/
abbrev FrameId := Nat

/-- The place of an object or array in a store. -/
abbrev ObjectId := Nat

/-- A function: one of the host, or one of the script with the frame it was made in. -/
inductive Function where
  | native (name : String) (behaviour : Callback)
  | script (definition : FunctionDefinition) (scope : FrameId)

/-- The name of a function, if it has one. -/
def Function.name? : Function → Option String
  | .native name _ => some name
  | .script definition _ => definition.name

/-- A function as a host sees it. -/
def Function.describe : Function → String
  | .native name _ => "<native fn " ++ name ++ ">"
  | .script definition _ =>
    match definition.name with
    | some name => "<fn " ++ name ++ ">"
    | none => "<fn>"

/-- A value of a script. -/
inductive Value where
  | number (value : Float)
  | string (text : String)
  | boolean (value : Bool)
  | null
  | undefined
  | object (id : ObjectId)
  | array (id : ObjectId)
  | function (id : Nat) (function : Function)

instance : Inhabited Value := ⟨.undefined⟩

namespace Value

/-- A value that refers to nothing. -/
def ofPlain : Plain → Value
  | .number value => .number value
  | .string text => .string text
  | .boolean value => .boolean value
  | .null => .null
  | .undefined => .undefined

/-- The name of a type in error messages: it tells null and arrays apart. -/
def typeName : Value → String
  | .number _ => "number"
  | .string _ => "string"
  | .boolean _ => "boolean"
  | .null => "null"
  | .undefined => "undefined"
  | .object _ => "object"
  | .array _ => "array"
  | .function .. => "function"

/-- The name of a type as scripts see it. -/
def typeOf : Value → String
  | .null | .array _ => "object"
  | value => value.typeName

/-- The place of an object or array. -/
def object? : Value → Option ObjectId
  | .object id | .array id => some id
  | _ => none

/-- Whether the value is null or undefined. -/
def isNullish : Value → Bool
  | .null | .undefined => true
  | _ => false

/-- Whether a condition holds for the value. It does not for zero, for what is no number,
for empty text, for false, null and undefined. -/
def isTruthy : Value → Bool
  | .number value => value != 0 && !value.isNaN
  | .string text => !text.isEmpty
  | .boolean value => value
  | .null | .undefined => false
  | .object _ | .array _ | .function .. => true

/-- The number that arithmetic takes the value for. Text, objects and functions are none. -/
def toNumber : Value → Except Error Float
  | .number value => .ok value
  | .boolean value => .ok (if value then 1 else 0)
  | .null => .ok 0
  | .undefined => .ok Number.nan
  | value => .error (.type (.notNumeric value.typeName))

/-- Whether two values are the same: objects, arrays and functions by identity, other
values by content. -/
def strictEquals : Value → Value → Bool
  | .number left, .number right => left == right
  | .string left, .string right => left == right
  | .boolean left, .boolean right => left == right
  | .null, .null | .undefined, .undefined => true
  | .object left, .object right => left == right
  | .array left, .array right => left == right
  | .function left _, .function right _ => left == right
  | _, _ => false

end Value

/-- The value that a function of the host gives, called with some arguments. -/
def Answer.value (arguments : List Value) : Answer → Value
  | .plain value => .ofPlain value
  | .argument index => (arguments[index]?).getD .undefined

end Scriptlet
