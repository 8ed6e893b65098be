import Scriptlet.Store

/-!
# Structural equality

Objects, and arrays, are equal if they have the same keys with equal values. A pair that is
reached again while it is being compared counts as equal, so that cyclic values can be
compared too.
-/

namespace Scriptlet

/-- The number that a number, boolean or text is compared as. -/
def Value.comparedNumber : Value → Float
  | .string text => Number.ofComparedText text
  | value =>
    match value.toNumber with
    | .ok result => result
    | .error _ => Number.nan

/-- Whether the value is a number or boolean. -/
def Value.isNumeric : Value → Bool
  | .number _ | .boolean _ => true
  | _ => false

/-- Whether the value is text. -/
def Value.isText : Value → Bool
  | .string _ => true
  | _ => false

/-- The places of two values if both are objects or both are arrays. -/
def Value.places? : Value → Value → Option (ObjectId × ObjectId)
  | .object left, .object right => some (left, right)
  | .array left, .array right => some (left, right)
  | _, _ => none

/-- Equality of values that are not both objects and not both arrays: null equals
undefined, numbers and booleans are compared as numbers with each other and with text. -/
def Value.primitiveEquals (left right : Value) : Bool :=
  if left.isNullish && right.isNullish then true
  else if left.isNumeric && (right.isNumeric || right.isText) ||
      left.isText && right.isNumeric then
    left.comparedNumber == right.comparedNumber
  else
    left.strictEquals right

/-- Whether two objects have the same keys, with values that are related. -/
def Object.matches (related : Value → Value → Bool) (left right : Object) : Bool :=
  left.entries.length == right.entries.length &&
    left.entries.all fun (key, value) =>
      match right.getKey? key with
      | some other => related value other
      | none => false

namespace Store

/-- Equality while the pairs of `path` are being compared; `nested` compares the values of
another pair. -/
def looseEqualsStep (store : Store) (nested : ObjectId × ObjectId → Value → Value → Bool)
    (path : List (ObjectId × ObjectId)) (left right : Value) : Bool :=
  match left.places? right with
  | none => left.primitiveEquals right
  | some pair =>
    if pair.1 = pair.2 || path.contains pair then true
    else (store.objectAt pair.1).matches (nested pair) (store.objectAt pair.2)

/-- Equality of values inside at most `room` more pairs. -/
def looseEqualsOn (store : Store) :
    Nat → List (ObjectId × ObjectId) → Value → Value → Bool
  | 0, _, _, _ => true
  | room + 1, path, left, right =>
    store.looseEqualsStep (fun pair => store.looseEqualsOn room (pair :: path)) path left right

/-- Structural equality of two values. Each pair of the store is open at most once, so
there is always room for one more comparison. -/
def looseEquals (store : Store) (left right : Value) : Bool :=
  store.looseEqualsOn (store.objects.size * store.objects.size + 1) [] left right

end Store
end Scriptlet
