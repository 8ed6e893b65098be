import Scriptlet.Store
import Scriptlet.Text.Quoted

/-!
# Values as text

Text by itself is written as it is, inside an object or array between quotes. An object
that is reached again while it is being written is marked as circular. A run of holes in
an array is written once.
-/

namespace Scriptlet

/-- A function as text. -/
def Function.display (function : Function) : String :=
  match function.name? with
  | some name => "[Function: " ++ name ++ "]"
  | none => "[Function (anonymous)]"

/-- A run of holes. -/
def holesText (count : Nat) : String :=
  if count = 1 then "<1 empty item>" else "<" ++ toString count ++ " empty items>"

/-- The elements of an array from index `next` on, with the holes between them. -/
def elementTexts (text : Value → String) : Nat → Sparse Value → List String
  | _, [] => []
  | next, (index, value) :: rest =>
    if next < index then
      holesText (index - next) :: text value :: elementTexts text (index + 1) rest
    else
      text value :: elementTexts text (index + 1) rest

/-- A property with its key. -/
def propertyText (text : Value → String) (key : String) (value : Value) : String :=
  key ++ ": " ++ text value

namespace Object

/-- The properties of an object, each value written by `text`. -/
def displayObject (text : Value → String) (object : Object) : String :=
  if object.isEmpty then "\x7b\x7d"
  else
    "\x7b " ++
      String.intercalate ", "
        (object.entries.map fun (key, value) => propertyText text key.text value) ++
      " \x7d"

/-- The elements and other properties of an array, each value written by `text`. -/
def displayArray (text : Value → String) (object : Object) : String :=
  if object.isEmpty then "[]"
  else
    "[ " ++
      String.intercalate ", "
        (elementTexts text 0 object.indexed ++
          object.named.map fun (name, value) => propertyText text name value) ++
      " ]"

end Object

namespace Store

/-- The mark of an object or array that is already being written. -/
def circularMark : String := "[Circular]"

/-- A value inside an object or array. `path` holds the objects that are being written, and
`nested` writes the values of another one. -/
def displayStep (store : Store) (nested : ObjectId → Value → String)
    (path : List ObjectId) : Value → String
  | .number value => Number.text value
  | .string text => "\"" ++ text ++ "\""
  | .boolean value => if value then "true" else "false"
  | .null => "null"
  | .undefined => "undefined"
  | .function _ function => function.display
  | .object id =>
    if path.contains id then circularMark
    else (store.objectAt id).displayObject (nested id)
  | .array id =>
    if path.contains id then circularMark
    else (store.objectAt id).displayArray (nested id)

/-- A value inside at most `room` more objects and arrays. -/
def displayNested (store : Store) : Nat → List ObjectId → Value → String
  | 0, _, _ => circularMark
  | room + 1, path, value =>
    store.displayStep (fun id => store.displayNested room (id :: path)) path value

/-- A value as text. Each object and array of the store is open at most once, so there is
always room for one more value. -/
def display (store : Store) (value : Value) : String :=
  match value with
  | .string text => text
  | value => store.displayNested (store.objects.size + 1) [] value

/-- How a value looks to a function of the host. -/
def look (store : Store) (value : Value) : Look :=
  ⟨value.typeName, store.display value, value.toNumber⟩

/-- A value as a host sees it: text is quoted. -/
def describe (store : Store) (value : Value) : String :=
  match value with
  | .string text => Text.quoted text
  | value => store.display value

end Store
end Scriptlet
