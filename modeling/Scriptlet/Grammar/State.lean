import Scriptlet.Token.Scan

/-!
# Reading tokens

A parse walks a list of scanned pieces with one token of lookahead. Its state outlives an
error: a caller that goes on afterwards finds the token where the error was found, and the
nesting that was open there.

* `advance`, `eat` and `expect` consume tokens;
* `withAllowIn` and `nested` change the state for the length of another parse;
* `loop` repeats a step; `separated` and `closedList` read lists.
-/

namespace Scriptlet
namespace Grammar

/-- Where a parse stands. -/
structure State where
  /-- The token of lookahead. -/
  current : Token
  /-- The pieces after it. -/
  upcoming : List (Except Error Token)
  /-- How many constructs are open around the current token. -/
  depth : Nat
  /-- Whether `in` is an operator here; it is none in the header of a loop. -/
  allowIn : Bool

/-- Reads a part of a script. -/
abbrev Parse := EStateM Error State

/-- A parse before the first token of a text whose first character is at byte offset
`base`. It fails if there is no such token. -/
def State.ofText (base : Nat) (text : List Char) : Except Error State :=
  match Scan.scanAll base text with
  | [] => .ok ⟨.endAt base false, [], 0, true⟩
  | .ok token :: upcoming => .ok ⟨token, upcoming, 0, true⟩
  | .error error :: _ => .error error

variable {α : Type}

/-! ## Single tokens -/

/-- The current token. -/
def peek : Parse Token := do
  return (← get).current

/-- The kind of the current token. -/
def peekKind : Parse Kind := do
  return (← get).current.kind

/-- Goes on with a result that does not depend on the state. -/
def ofExcept : Except Error α → Parse α
  | .ok value => pure value
  | .error error => throw error

/-- Whether `in` is an operator here. -/
def allowsIn : Parse Bool := do
  return (← get).allowIn

/-- Consumes the current token. After the last token comes the end of the input. -/
def advance : Parse Token := fun state =>
  match state.upcoming with
  | [] => .ok state.current { state with current := .endAt state.current.stop false }
  | .ok token :: upcoming => .ok state.current { state with current := token, upcoming }
  | .error error :: upcoming => .error error { state with upcoming }

/-- Fails at the current token. -/
def unexpected (expected : Expected) : Parse α := do
  let token ← peek
  throw (.unexpected expected token.description token.start)

/-- Consumes the current token if it is of this kind. -/
def eat (kind : Kind) : Parse Bool := do
  if (← peekKind) = kind then
    let _ ← advance
    return true
  else
    return false

/-- Consumes the current token, which has to be of this kind. -/
def expect (kind : Kind) : Parse Token := do
  if (← peekKind) = kind then advance else unexpected (.token kind)

/-- Consumes an identifier. -/
def expectIdentifier : Parse String := do
  return (← expect .identifier).lexeme

/-- Whether the current token is the identifier `word`. -/
def atWord (word : String) : Parse Bool := do
  let token ← peek
  return token.kind = .identifier && token.lexeme = word

/-- Consumes the identifier `word`. -/
def expectWord (word : String) : Parse Unit := do
  if ← atWord word then
    let _ ← advance
  else
    unexpected (.word word)

/-! ## Context -/

/-- Runs a parse with `in` as an operator or not, and restores the setting afterwards, also
after an error. -/
def withAllowIn (allowIn : Bool) (parse : Parse α) : Parse α := fun state =>
  match parse { state with allowIn } with
  | .ok value after => .ok value { after with allowIn := state.allowIn }
  | .error error after => .error error { after with allowIn := state.allowIn }

/-- Runs a parse one level further in. The level is left again only if the parse
succeeds. -/
def nested (parse : Parse α) : Parse α := fun state =>
  match parse { state with depth := state.depth + 1 } with
  | .ok value after => .ok value { after with depth := after.depth - 1 }
  | .error error after => .error error after

/-- Enters a level that is more than the limit allows. -/
def tooDeep (limit : Nat) : Parse α := fun state =>
  .error (.tooDeep limit) { state with depth := state.depth + 1 }

/-! ## Repetition -/

/-- What a step of a loop found: the loop goes on, or ends. -/
inductive Step (α : Type) where
  | again (value : α)
  | done (value : α)

/-- The value that a step found, whether the loop would go on or not. -/
def Step.value : Step α → α
  | .again value | .done value => value

/-- Repeats a step, at most once for each of the tokens ahead and once more. -/
def repeatOver (step : α → Parse (Step α)) : List (Except Error Token) → α → Parse α
  | [], value => Step.value <$> step value
  | _ :: ahead, value => do
    match ← step value with
    | .again value => repeatOver step ahead value
    | .done value => pure value

/-- Repeats a step until it is done. Every round that is not the last consumes a token, so
there are no more rounds than tokens. -/
def loop (step : α → Parse (Step α)) (value : α) : Parse α := do
  repeatOver step (← get).upcoming value

/-- Reads an item and the comma after it, if there is one. -/
def separatedStep (item : Parse α) (items : List α) : Parse (Step (List α)) := do
  let next ← item
  if ← eat (.symbol .comma) then
    return .again (next :: items)
  else
    return .done (next :: items)

/-- Reads one or more items with commas between them. -/
def separated (item : Parse α) : Parse (List α) := do
  let items ← loop (separatedStep item) []
  return items.reverse

/-- Reads the end of a list, or an item with what follows it. -/
def closedStep (close : Symbol) (item : Parse α) (items : List α) :
    Parse (Step (List α)) := do
  if ← eat (.symbol close) then
    return .done items
  else
    let next ← item
    if ← eat (.symbol .comma) then
      return .again (next :: items)
    else
      let _ ← expect (.symbol close)
      return .done (next :: items)

/-- Reads items with commas between them up to the token that closes the list. A comma may
also stand after the last item. -/
def closedList (close : Symbol) (item : Parse α) : Parse (List α) := do
  let items ← loop (closedStep close item) []
  return items.reverse

end Grammar
end Scriptlet
