import Scriptlet.Store
import Scriptlet.Text.Quoted

/-!
# Scopes

A name means the variable of the nearest frame that has one: the frames from a scope
outwards form its chain. Assigning changes that variable; if there is none, the scope
itself gets it.
-/

namespace Scriptlet
namespace Store

/-- The scope around a scope. It was made before, so it has an earlier place. -/
def parent? (store : Store) (scope : FrameId) : Option FrameId :=
  ((store.frames[scope]?).bind (·.parent)).filter (· < scope)

/-- The first frames from a scope outwards, at most `count` of them. -/
def chainUpTo (store : Store) : Nat → FrameId → List FrameId
  | 0, _ => []
  | count + 1, scope =>
    scope ::
      match store.parent? scope with
      | some parent => store.chainUpTo count parent
      | none => []

/-- The frames from a scope outwards. There are no more of them than places up to the
scope. -/
def chain (store : Store) (scope : FrameId) : List FrameId :=
  store.chainUpTo (scope + 1) scope

/-- The variables of a frame itself. -/
def bindings (store : Store) (scope : FrameId) : Dict Value :=
  ((store.frames[scope]?).map (·.bindings)).getD []

/-- The variable that a frame itself has under a name. -/
def local? (store : Store) (scope : FrameId) (name : String) : Option Value :=
  (store.bindings scope).get? name

/-- The nearest frame that has a variable of this name. -/
def owner? (store : Store) (scope : FrameId) (name : String) : Option FrameId :=
  (store.chain scope).find? fun frame => (store.local? frame name).isSome

/-- The value of a name. -/
def resolve? (store : Store) (scope : FrameId) (name : String) : Option Value :=
  (store.chain scope).findSome? fun frame => store.local? frame name

/-- The value of a name, which has to mean a variable. -/
def lookup (store : Store) (scope : FrameId) (name : String) : Except Error Value :=
  match store.resolve? scope name with
  | some value => .ok value
  | none => .error (.unbound name)

/-- Whether a name means a variable. -/
def binds (store : Store) (scope : FrameId) (name : String) : Bool :=
  (store.owner? scope name).isSome

/-- Whether a frame itself has a variable of this name. -/
def bindsLocally (store : Store) (scope : FrameId) (name : String) : Bool :=
  (store.local? scope name).isSome

/-- Gives a frame a variable, in place of one that it has under the same name. -/
def define (store : Store) (scope : FrameId) (name : String) (value : Value) : Store :=
  { store with
    frames := store.frames.modify scope fun frame =>
      { frame with bindings := frame.bindings.put name value } }

/-- Changes the variable that a name means, or gives the scope one. -/
def assign (store : Store) (scope : FrameId) (name : String) (value : Value) : Store :=
  store.define ((store.owner? scope name).getD scope) name value

/-- The names of a frame in ascending order. -/
def sortedNames (store : Store) (scope : FrameId) : List String :=
  ((store.bindings scope).map (·.1)).mergeSort fun left right => decide (left ≤ right)

/-- A frame as a host sees it, with the text of the frame around it. -/
def describeFrame (names : List String) (parent : String) : String :=
  "Environment \x7b bindings: [" ++ String.intercalate ", " (names.map Text.quoted) ++
    "], parent: " ++ parent ++ " \x7d"

/-- The names of a chain of frames as a host sees them. -/
def describeChain (store : Store) : List FrameId → String
  | [] => "None"
  | [scope] => describeFrame (store.sortedNames scope) "None"
  | scope :: outer =>
    describeFrame (store.sortedNames scope) ("Some(" ++ store.describeChain outer ++ ")")

/-- A scope as a host sees it. -/
def describeScope (store : Store) (scope : FrameId) : String :=
  store.describeChain (store.chain scope)

end Store
end Scriptlet
