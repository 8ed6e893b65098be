import Scriptlet.Error

/-!
# Functions of the host

The program that runs scripts gives them functions of its own. Such a function sees how its
arguments look, writes lines of output, and gives a value that refers to nothing or one of
its arguments. It neither makes nor changes objects.
-/

namespace Scriptlet

/-- A value that refers to nothing. -/
inductive Plain where
  | number (value : Float)
  | string (text : String)
  | boolean (value : Bool)
  | null
  | undefined

/-- How a value looks from outside: the name of its type, its text, and the number that
arithmetic takes it for. -/
structure Look where
  type : String
  text : String
  number : Except Error Float

/-- What a function of the host gives. -/
inductive Answer where
  | plain (value : Plain)
  /-- The argument at a place. -/
  | argument (index : Nat)

/-- What a function of the host does in a call. The errors that it gives are of the kind that
running a script gives. -/
structure Deed where
  lines : List String
  answer : Except Error Answer
  arises : ∀ error, answer = .error error → error.Arises

/-- A function of the host, by what it does for each look of its arguments. -/
abbrev Callback := List Look → Deed

/-- Writes its arguments as a line, with a space between them. -/
def Callback.log : Callback := fun arguments =>
  ⟨[String.intercalate " " (arguments.map (·.text))], .ok (.plain .undefined), nofun⟩

end Scriptlet
