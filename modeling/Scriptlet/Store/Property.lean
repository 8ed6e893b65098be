import Scriptlet.Number.Arithmetic
import Scriptlet.Store

/-!
# Properties of values

Only objects and arrays have properties. The length of an array is computed, whatever is
stored under that name.
-/

namespace Scriptlet
namespace Store

/-- The value of a property; an absent one is undefined. -/
def getProperty (store : Store) (value : Value) (key : String) : Except Error Value :=
  match value with
  | .object id => .ok (((store.objectAt id).get? key).getD .undefined)
  | .array id =>
    if key = "length" then .ok (.number (Number.ofInt (store.objectAt id).length))
    else .ok (((store.objectAt id).get? key).getD .undefined)
  | value => .error (.type (.cannotRead value.typeName key))

/-- Gives a property a value. -/
def setProperty (store : Store) (target : Value) (key : String) (value : Value) :
    Except Error Store :=
  match target.object? with
  | some id => .ok (store.modifyObject id (·.set key value))
  | none => .error (.type (.cannotSet target.typeName key))

/-- Takes a property out, and tells whether there was one. -/
def deleteProperty (store : Store) (target : Value) (key : String) :
    Except Error (Bool × Store) :=
  match target.object? with
  | some id =>
    .ok ((store.objectAt id).contains key, store.modifyObject id (·.remove key))
  | none => .error (.type (.cannotDelete target.typeName key))

/-- Whether there is such a property. -/
def hasProperty (store : Store) (target : Value) (key : String) : Except Error Bool :=
  match target with
  | .object id => .ok ((store.objectAt id).contains key)
  | .array id => .ok (key = "length" || (store.objectAt id).contains key)
  | value => .error (.type (.cannotSearch value.typeName key))

/-- Spreading gives at most this many elements, `2 ^ 24`. -/
def maxSpread : Nat := 16777216

/-- The elements of an array that is spread; a hole is undefined. -/
def spread (store : Store) (value : Value) : Except Error (List Value) :=
  match value with
  | .array id =>
    let object := store.objectAt id
    if maxSpread < object.length then .error (.type (.spreadTooLong object.length))
    else .ok (object.indexed.toList .undefined)
  | value => .error (.type (.notIterable value.typeName))

end Store
end Scriptlet
