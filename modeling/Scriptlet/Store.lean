import Scriptlet.Object

/-!
# The store

Everything that values refer to: the frames of variables, the objects and arrays, and how
many functions there are.
-/

namespace Scriptlet

/-- The variables of a scope, and the scope around it. -/
structure Frame where
  bindings : Dict Value
  parent : Option FrameId

/-- The frames, objects and functions of a script. Places are never given up. -/
structure Store where
  frames : Array Frame
  objects : Array Object
  /-- How many functions were made. -/
  functions : Nat

namespace Store

/-- A store with nothing in it. -/
def empty : Store := ⟨#[], #[], 0⟩

/-- The properties of an object or array. -/
def objectAt (store : Store) (id : ObjectId) : Object :=
  (store.objects[id]?).getD .empty

/-- The place that the next object gets. -/
def nextObject (store : Store) : ObjectId :=
  store.objects.size

/-- The place that the next frame gets. -/
def nextFrame (store : Store) : FrameId :=
  store.frames.size

/-- Adds an object or array in the next place. -/
def addObject (store : Store) (object : Object) : Store :=
  { store with objects := store.objects.push object }

/-- Adds a frame without variables in the next place. -/
def addFrame (store : Store) (parent : Option FrameId) : Store :=
  { store with frames := store.frames.push ⟨[], parent⟩ }

/-- Counts a function. -/
def addFunction (store : Store) : Store :=
  { store with functions := store.functions + 1 }

/-- Changes the properties of an object or array. -/
def modifyObject (store : Store) (id : ObjectId) (change : Object → Object) : Store :=
  { store with objects := store.objects.modify id change }

end Store
end Scriptlet
