import Scriptlet.Store.Property
import Scriptlet.Store.Scope

/-!
# References

A reference is a variable or property that can be read and assigned to. Its parts are
values, so that using it again evaluates nothing again.
-/

namespace Scriptlet

/-- Something that can be assigned to. -/
inductive Reference where
  | variable_ (scope : FrameId) (name : String)
  | property (object : Value) (key : String)

namespace Reference

/-- The value of a reference. -/
def get (reference : Reference) (store : Store) : Except Error Value :=
  match reference with
  | .variable_ scope name => store.lookup scope name
  | .property object key => store.getProperty object key

/-- Gives a reference a value. -/
def set (reference : Reference) (store : Store) (value : Value) : Except Error Store :=
  match reference with
  | .variable_ scope name => .ok (store.assign scope name value)
  | .property object key => store.setProperty object key value

/-- Takes a property out, whether it is there or not. Variables stay: the answer is
false. -/
def delete (reference : Reference) (store : Store) : Except Error (Bool × Store) :=
  match reference with
  | .variable_ _ _ => .ok (false, store)
  | .property object key =>
    (store.deleteProperty object key).map fun (_, store) => (true, store)

end Reference
end Scriptlet
