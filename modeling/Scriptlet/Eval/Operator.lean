import Scriptlet.Number.Arithmetic
import Scriptlet.Store.Display
import Scriptlet.Store.Equality
import Scriptlet.Store.Property

/-!
# Operators on values

What an operator makes of the values of its operands. Operators read the store, to write
values as text and to compare them, and never change it.
-/

namespace Scriptlet

namespace Value

/-- A number operation on two values. The left one is converted first. -/
def arithmetic (operation : Float → Float → Float) (left right : Value) :
    Except Error Value := do
  let x ← left.toNumber
  let y ← right.toNumber
  return .number (operation x y)

/-- A comparison of two values: two texts by their characters, other values as numbers. -/
def compare (texts : String → String → Bool) (numbers : Float → Float → Bool)
    (left right : Value) : Except Error Value := do
  match left, right with
  | .string x, .string y => return .boolean (texts x y)
  | _, _ =>
    let x ← left.toNumber
    let y ← right.toNumber
    return .boolean (numbers x y)

/-- The number of a signed word. -/
def ofSignedWord (word : Int32) : Value :=
  .number (Number.ofInt word.toInt)

/-- The number of a word. -/
def ofWord (word : UInt32) : Value :=
  .number (Number.ofInt (Int.ofNat word.toNat))

/-- An operation on the bits of two values. -/
def bitwise (operation : UInt32 → UInt32 → UInt32) (left right : Value) :
    Except Error Value := do
  let x ← left.toNumber
  let y ← right.toNumber
  return ofSignedWord (operation (Number.toWord x) (Number.toWord y)).toInt32

/-- A shift by the last five bits of the right value, which is converted first. -/
def shift (operation : Float → UInt32 → Value) (left right : Value) : Except Error Value := do
  let y ← right.toNumber
  let x ← left.toNumber
  return operation x (Number.toWord y &&& 31)

/-- What an operator in front of an operand makes of its value. -/
def unary (op : UnaryOp) (operand : Value) : Except Error Value :=
  match op with
  | .plus => return .number (← operand.toNumber)
  | .minus => return .number (-(← operand.toNumber))
  | .bitNot => return ofSignedWord (~~~(Number.toSignedWord (← operand.toNumber)))
  | .not => return .boolean (!operand.isTruthy)
  | .void => return .undefined
  | .typeof => return .string operand.typeOf
  | .delete => return .boolean true
  | .await => throw (.unimplemented .awaitExpressions)

end Value

/-- Whether the left operand decides the result, so that the right one is not evaluated. -/
def BinaryOp.shortCircuits (op : BinaryOp) (left : Value) : Bool :=
  match op with
  | .logicalAnd => !left.isTruthy
  | .logicalOr => left.isTruthy
  | .coalesce => !left.isNullish
  | _ => false

namespace Store

/-- Addition of numbers, or concatenation if one of the values is text. -/
def add (store : Store) (left right : Value) : Except Error Value :=
  if left.isText || right.isText then
    .ok (.string (store.display left ++ store.display right))
  else
    left.arithmetic (· + ·) right

/-- What a binary operator makes of two values. -/
def binary (store : Store) (op : BinaryOp) (left right : Value) : Except Error Value :=
  match op with
  | .add => store.add left right
  | .subtract => left.arithmetic (· - ·) right
  | .multiply => left.arithmetic (· * ·) right
  | .divide => left.arithmetic (· / ·) right
  | .remainder => left.arithmetic Number.remainder right
  | .power => left.arithmetic Number.power right
  | .equal => .ok (.boolean (store.looseEquals left right))
  | .notEqual => .ok (.boolean (!store.looseEquals left right))
  | .strictEqual => .ok (.boolean (left.strictEquals right))
  | .strictNotEqual => .ok (.boolean (!left.strictEquals right))
  | .lessThan => left.compare (fun x y => decide (x < y)) (fun x y => decide (x < y)) right
  | .lessThanEqual =>
    left.compare (fun x y => !decide (y < x)) (fun x y => decide (x ≤ y)) right
  | .greaterThan => left.compare (fun x y => decide (y < x)) (fun x y => decide (y < x)) right
  | .greaterThanEqual =>
    left.compare (fun x y => !decide (x < y)) (fun x y => decide (y ≤ x)) right
  | .bitAnd => left.bitwise (· &&& ·) right
  | .bitOr => left.bitwise (· ||| ·) right
  | .bitXor => left.bitwise (· ^^^ ·) right
  | .shiftLeft =>
    left.shift (fun x count => .ofSignedWord (Number.toWord x <<< count).toInt32) right
  | .shiftRight =>
    left.shift (fun x count => .ofSignedWord (Number.toSignedWord x >>> count.toInt32)) right
  | .unsignedShiftRight => left.shift (fun x count => .ofWord (Number.toWord x >>> count)) right
  | .logicalAnd => .ok (if left.isTruthy then right else left)
  | .logicalOr => .ok (if left.isTruthy then left else right)
  | .coalesce => .ok (if left.isNullish then right else left)
  | .in_ => (store.hasProperty right (store.display left)).map .boolean
  | .instanceof => .error (.unimplemented .instanceofOperator)

end Store
end Scriptlet
