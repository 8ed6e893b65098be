import Scriptlet.Object.Dict
import Scriptlet.Object.Key
import Scriptlet.Object.Sparse
import Scriptlet.Value

/-!
# Objects

The properties of an object or array. Keys that are indices are kept apart from names;
they come first, in ascending order, then the names in the order of their arrival.
-/

namespace Scriptlet

/-- The properties of an object or array. -/
structure Object where
  indexed : Sparse Value
  named : Dict Value

namespace Object

/-- An object without properties. -/
def empty : Object := ⟨[], []⟩

/-- The elements of an array literal; an absent one is a hole. They are counted with 32
bits. -/
def ofElements? (elements : List (Option Value)) : Option Object :=
  (Sparse.ofList? elements).map (⟨·, []⟩)

/-- The object that has elements at their places and nothing else. -/
def ofElements (elements : List (Option Value)) : Object :=
  ⟨.ofList elements, []⟩

/-- There are as many elements at most as there are indices. -/
theorem ofElements?_eq (elements : List (Option Value)) :
    ofElements? elements =
      if elements.length ≤ Key.indexBound then some (ofElements elements) else none := by
  rw [ofElements?, Sparse.ofList?_eq, apply_ite (Option.map _)]
  rfl

/-- The value of a key. -/
def getKey? (object : Object) : Key → Option Value
  | .index index => object.indexed.get? index
  | .name name => object.named.get? name

/-- The value of a property. -/
def get? (object : Object) (key : String) : Option Value :=
  object.getKey? (.ofText key)

/-- Gives a property a value. -/
def set (object : Object) (key : String) (value : Value) : Object :=
  match Key.ofText key with
  | .index index => { object with indexed := object.indexed.put index value }
  | .name name => { object with named := object.named.put name value }

/-- Takes a property out. -/
def remove (object : Object) (key : String) : Object :=
  match Key.ofText key with
  | .index index => { object with indexed := object.indexed.remove index }
  | .name name => { object with named := object.named.remove name }

/-- Takes the entry of a key out of a list, and gives the value that it had. -/
def takeEntry {κ : Type} [BEq κ] : List (κ × Value) → κ → Option Value × List (κ × Value)
  | [], _ => (none, [])
  | entry :: rest, key =>
    if entry.1 == key then (some entry.2, rest)
    else
      let (value, rest) := takeEntry rest key
      (value, entry :: rest)

/-- Takes a property out, and gives the value that it had. -/
def takeOut (object : Object) (key : String) : Option Value × Object :=
  match Key.ofText key with
  | .index index =>
    let (value, indexed) := takeEntry object.indexed index
    (value, { object with indexed })
  | .name name =>
    let (value, named) := takeEntry object.named name
    (value, { object with named })

/-- Whether there is such a property. -/
def contains (object : Object) (key : String) : Bool :=
  (object.get? key).isSome

/-- One more than the highest index, or zero if there is none. The count has 32 bits, and
stops at the highest number of so many. -/
def length (object : Object) : Nat :=
  min object.indexed.length 4294967295

/-- Whether there is no property. -/
def isEmpty (object : Object) : Bool :=
  object.indexed.isEmpty && object.named.isEmpty

/-- All properties, the indices first. -/
def entries (object : Object) : List (Key × Value) :=
  object.indexed.map (fun (index, value) => (Key.index index, value)) ++
    object.named.map fun (name, value) => (Key.name name, value)

/-- Gives each property of `source` to the object, in the order of `source`. -/
def merge (object source : Object) : Object :=
  source.entries.foldl (fun object (key, value) => object.set key.text value) object

end Object
end Scriptlet
