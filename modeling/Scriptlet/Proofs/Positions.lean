import Mathlib.Data.String.Basic
import Scriptlet.Proofs.Soundness
import Scriptlet.Report

/-!
# Where errors are

The position of an error is a place of the text that was read: it lies between two of its
characters, or at one of its ends. Offsets add up on the way from a span to its template and
from there to the whole text, so this holds inside templates too. A position of the text has
a line and a column, and those are what the report on a script shows. Running a script gives
no error with a position, so after an error that has one nothing was run.
-/

namespace Scriptlet

open Eval Grammar
open Text (byteLength Boundary)

namespace Text

/-- What scanning and reading count on is what strings call a valid position. -/
theorem Boundary.isValid {base position : Nat} {text : List Char}
    (boundary : Boundary base text position) :
    String.Pos.Raw.IsValid (String.ofList text) ⟨position - base⟩ := by
  obtain ⟨before, after, rfl, rfl⟩ := boundary
  refine String.Pos.Raw.isValid_iff_exists_append.mpr
    ⟨String.ofList before, String.ofList after, String.ofList_append, ?_⟩
  rw [Nat.add_sub_cancel_left, byteLength_eq]
  rfl

namespace Position

theorem advance?_zero (position : Position) (text : List Char) :
    position.advance? text 0 = some position := by
  cases text <;> rfl

theorem advance?_nil (position : Position) (offset : Nat) :
    position.advance? [] offset = some position := by
  cases offset <;> rfl

theorem advance?_cons (position : Position) (char : Char) (rest : List Char) (offset : Nat) :
    position.advance? (char :: rest) (char.utf8Size + offset) =
      (position.after char).advance? rest offset := by
  obtain ⟨size, positive⟩ : ∃ size, char.utf8Size + offset = size + 1 :=
    Nat.exists_eq_succ_of_ne_zero (by have := char.utf8Size_pos; omega)
  have fits : char.utf8Size ≤ size + 1 := by omega
  have left : size + 1 - char.utf8Size = offset := by omega
  rw [positive, advance?, if_pos fits, left]

/-- Going on from behind some characters. -/
theorem advance?_append_add (position : Position) (before after : List Char) (offset : Nat) :
    position.advance? (before ++ after) (byteLength before + offset) =
      (before.foldl Position.after position).advance? after offset := by
  induction before generalizing position with
  | nil => rw [byteLength_nil, Nat.zero_add, List.nil_append, List.foldl_nil]
  | cons char before ih =>
    rw [List.cons_append, byteLength_cons, Nat.add_assoc, advance?_cons, ih, List.foldl_cons]

/-- The place after some characters. -/
theorem advance?_append (position : Position) (before after : List Char) :
    position.advance? (before ++ after) (byteLength before) =
      some (before.foldl Position.after position) := by
  have here := position.advance?_append_add before after 0
  rwa [Nat.add_zero, advance?_zero] at here

end Position

end Text

/-! ## Errors of a text -/

/-- Whether the position of an error, if it has one, is a place of a text whose first
character is at byte offset `base`. -/
def Error.PlacedIn (base : Nat) (text : List Char) (error : Error) : Prop :=
  ∀ position, error.position? = some position →
    base ≤ position ∧ position ≤ base + (String.ofList text).utf8ByteSize ∧
      String.Pos.Raw.IsValid (String.ofList text) ⟨position - base⟩

theorem Error.FromText.boundary {base position : Nat} {text : List Char} {error : Error}
    (known : error.FromText base text) (placed : error.position? = some position) :
    Boundary base text position := by
  cases error with
  | lexical fault found =>
    obtain rfl := Option.some.inj placed
    exact known.2.2
  | unexpected expected token found =>
    obtain rfl := Option.some.inj placed
    exact known.2
  | _ => cases placed

theorem Error.FromText.placedIn {base : Nat} {text : List Char} {error : Error}
    (known : error.FromText base text) : error.PlacedIn base text := by
  intro position placed
  have boundary := known.boundary placed
  obtain ⟨after, before⟩ := boundary.bounds
  rw [Text.byteLength_eq] at before
  exact ⟨after, before, boundary.isValid⟩

/-! ## Errors of a script -/

theorem Error.unplaced_of_isInternal {error : Error} (internal : error.isInternal = true) :
    error.position? = none := by
  cases error with
  | lexical fault position => cases internal
  | unexpected expected found position => cases internal
  | _ => rfl

/-- Any trees, and errors that have no position. -/
def Regime.unplaced : Regime :=
  { Regime.any with
    raises := fun error => error.position? = none
    arises := fun arises => arises.position
    wellFormed := .inr fun _ internal => Error.unplaced_of_isInternal internal }

/-- Only reading gives errors with a position, whatever an engine holds. -/
theorem Engine.parse_of_evaluate {engine : Engine} {code : String} {error : Error}
    (fails : (engine.evaluate code).1 = .error error) (placed : error.position? ≠ none) :
    Program.parse code = .error error := by
  have every : ∀ program, Program.parse code = .ok program →
      everyStmt Regime.unplaced.node program.body :=
    fun program _ => everyStmt_of_forall (fun _ => trivial) program.body
  obtain ⟨-, raises⟩ := Regime.unplaced.evaluate_ends engine.machine.store.known_all every
  rcases raises error fails with unread | raised
  · exact unread
  · exact absurd raised placed

theorem Engine.fromText_of_evaluate {engine : Engine} {code : String} {error : Error}
    {position : Nat} (fails : (engine.evaluate code).1 = .error error)
    (placed : error.position? = some position) : error.FromText 0 code.toList := by
  have somewhere : error.position? ≠ none := by simp [placed]
  exact Program.fromText_of_parse (Engine.parse_of_evaluate fails somewhere)

/-- Every error of scanning and reading is at a place of the text, wherever the text begins;
the error of a script is reported with the line and the column of its place. -/
theorem errors_are_placed :
    (∀ (base : Nat) (text : List Char) (error : Error),
        .error error ∈ Scan.scanAll base text ∨ State.ofText base text = .error error →
          error.PlacedIn base text) ∧
      (∀ (base : Nat) (text : List Char) (state : State), Reached base text state →
        ∀ (limit : Nat) (entry : Entry) (error : Error) (after : State),
          entry.run limit state = .error error after → error.PlacedIn base text) ∧
      ∀ (engine : Engine) (code : String) (error : Error) (position : Nat),
        (engine.evaluate code).1 = .error error → error.position? = some position →
          String.Pos.Raw.IsValid code ⟨position⟩ ∧
            ∃ before after, code.toList = before ++ after ∧ position = byteLength before ∧
              let place := before.foldl Text.Position.after .start
              Text.Position.ofOffset? code position = some place ∧
                ∀ path, Report.locate path code error =
                  path ++ ":" ++ toString place.line ++ ":" ++ toString place.column ++ ": " ++
                    error.message := by
  refine ⟨fun base text error fails => ?_, fun base text state reached limit entry error after
    fails => (reached.fromText fails).placedIn, fun engine code error position fails placed => ?_⟩
  · rcases fails with member | fails
    · have known : error.FromScan base text := Scan.scanUpTo_from member
      exact known.fromText.placedIn
    · exact (fromText_of_ofText fails).placedIn
  · have known := Engine.fromText_of_evaluate fails placed
    have boundary := known.boundary placed
    have valid := boundary.isValid
    rw [String.ofList_toList, Nat.sub_zero] at valid
    obtain ⟨before, after, split, same⟩ := boundary
    rw [Nat.zero_add] at same
    have located : Text.Position.ofOffset? code position =
        some (before.foldl Text.Position.after .start) := by
      rw [Text.Position.ofOffset?, split, same, Text.Position.advance?_append]
    refine ⟨valid, before, after, split, same, located, fun path => ?_⟩
    rw [Report.locate, placed, Option.bind_some, located]

/-- A template whose span breaks off, after characters of two bytes. -/
def brokenTemplate : String := "`é$\x7b1 +\x7d`"

/-- The template is read at offset 7; in a script of its own it is on the first line. -/
theorem brokenTemplate_placed :
    (∃ state error after, Reached 7 brokenTemplate.toList state ∧
        (Entry.expr 0).run 9 state = .error error after ∧ error.position? = some 15 ∧
          error.PlacedIn 7 brokenTemplate.toList) ∧
      ∃ error, ((Engine.new 4 .unlimited).evaluate brokenTemplate).1 = .error error ∧
        error.position? = some 8 ∧ String.Pos.Raw.IsValid brokenTemplate ⟨8⟩ := by
  constructor
  · have fails : (match State.ofText 7 brokenTemplate.toList with
        | .ok state =>
          match (Entry.expr 0).run 9 state with
          | .ok _ _ => none
          | .error error _ => error.position?
        | .error _ => none) = some 15 := by decide +kernel
    cases starts : State.ofText 7 brokenTemplate.toList with
    | error error =>
      rw [starts] at fails
      cases fails
    | ok state =>
      rw [starts] at fails
      cases runs : (Entry.expr 0).run 9 state with
      | ok tree after =>
        simp only [runs] at fails
        cases fails
      | error error after =>
        simp only [runs] at fails
        have reached := Reached.start starts
        exact ⟨state, error, after, reached, runs, fails,
          errors_are_placed.2.1 _ _ _ reached 9 (.expr 0) error after runs⟩
  · have fails : (match ((Engine.new 4 .unlimited).evaluate brokenTemplate).1 with
        | .ok _ => none
        | .error error => error.position?) = some 8 := by decide +kernel
    cases result : ((Engine.new 4 .unlimited).evaluate brokenTemplate).1 with
    | ok value =>
      rw [result] at fails
      cases fails
    | error error =>
      rw [result] at fails
      exact ⟨error, rfl, fails, (errors_are_placed.2.2 _ _ error 8 result fails).1⟩

/-! ## Errors before anything ran -/

/-- Whether an error was found in the text of a script: a lexical or a syntax error. -/
def Error.InText (error : Error) : Prop :=
  (∃ fault position, error = .lexical fault position) ∨
    ∃ expected found position, error = .unexpected expected found position

theorem Error.InText.placed {error : Error} (inText : error.InText) : error.position? ≠ none := by
  rcases inText with ⟨fault, position, rfl⟩ | ⟨expected, found, position, rfl⟩
  · exact Option.some_ne_none position
  · exact Option.some_ne_none position

/-- Whatever is run on whatever machine, its errors have no position. -/
theorem Eval.unplaced_of_runProgram {limit : Nat} {scope : FrameId} {program : Program}
    {machine after : Machine} {error : Error}
    (fails : runProgram limit scope program machine = .error error after) :
    error.position? = none := by
  have every : everyStmt Regime.unplaced.node program.body :=
    everyStmt_of_forall (fun _ => trivial) program.body
  have place : Footing.all.frame scope := trivial
  have ends := Regime.unplaced.runProgram_ends limit ⟨rfl, machine.store.known_all⟩ place every
  rw [fails] at ends
  exact ends.1

theorem Eval.unplaced_of_callWithin {limit : Nat} {function : Function} {receiver : Option Value}
    {arguments : List Value} {machine after : Machine} {error : Error}
    (fails : callWithin limit function receiver arguments machine = .error error after) :
    error.position? = none := by
  have ends := Regime.unplaced.callWithin_ends limit ⟨rfl, machine.store.known_all⟩
    function.known_all (fun value (_ : value ∈ receiver) => value.known_all)
    (fun value (_ : value ∈ arguments) => value.known_all)
  rw [fails] at ends
  exact ends.1

/-- A script that fails with a lexical or syntax error was never run: the engine is as before,
with its variables, its objects and its output. No script and no function that is called gives
such an error, on any machine and in any scope. -/
theorem text_errors_run_nothing :
    (∀ (engine : Engine) (code : String) (error : Error),
        (engine.evaluate code).1 = .error error → error.InText →
          Program.parse code = .error error ∧ (engine.evaluate code).2 = engine) ∧
      (∀ (limit : Nat) (scope : FrameId) (program : Program) (machine after : Machine)
        (error : Error),
        runProgram limit scope program machine = .error error after → ¬ error.InText) ∧
      ∀ (limit : Nat) (function : Function) (receiver : Option Value) (arguments : List Value)
        (machine after : Machine) (error : Error),
        callWithin limit function receiver arguments machine = .error error after →
          ¬ error.InText := by
  refine ⟨fun engine code error fails inText => ?_,
    fun limit scope program machine after error fails inText => ?_,
    fun limit function receiver arguments machine after error fails inText => ?_⟩
  · have unread := Engine.parse_of_evaluate fails inText.placed
    refine ⟨unread, ?_⟩
    unfold Engine.evaluate
    rw [unread]
  · exact inText.placed (unplaced_of_runProgram fails)
  · exact inText.placed (unplaced_of_callWithin fails)

/-- An engine after a script that gave a name a value and wrote a line. -/
def usedEngine : Engine :=
  ((Engine.new 4 .unlimited).evaluate "var a = 'in'; console.log(a)").2

/-- A script that breaks off at its end, after a line that would be written. -/
def brokenOff : String := "a = 'out'; console.log(a); var"

/-- A script that is only a name which has no value. -/
def unknownName : Program := ⟨[.expression (.identifier "b")]⟩

/-- The engine has still written one line. A script that can be read, and fails while it runs,
fails with an error of another kind. -/
theorem usedEngine_unchanged :
    (∃ error, (usedEngine.evaluate brokenOff).1 = .error error ∧ error.InText ∧
        (usedEngine.evaluate brokenOff).2 = usedEngine ∧
        usedEngine.machine.sink.lines = #["in"]) ∧
      ∃ error after, runProgram 4 Engine.global unknownName
          ⟨Engine.initialStore, .unlimited, 0⟩ = .error error after ∧ ¬ error.InText := by
  constructor
  · have fails : (match (usedEngine.evaluate brokenOff).1 with
        | .ok _ => none
        | .error error => some error) =
          some (.unexpected (.token .identifier) "end of input" 30) := by decide +kernel
    have spoken : usedEngine.machine.sink.lines = #["in"] := by decide +kernel
    cases result : (usedEngine.evaluate brokenOff).1 with
    | ok value =>
      rw [result] at fails
      cases fails
    | error error =>
      rw [result] at fails
      have inText : error.InText := .inr ⟨_, _, _, Option.some.inj fails⟩
      exact ⟨error, rfl, inText, (text_errors_run_nothing.1 _ _ error result inText).2, spoken⟩
  · have other := text_errors_run_nothing.2.1 4 Engine.global unknownName
      ⟨Engine.initialStore, .unlimited, 0⟩
    exact ⟨_, _, rfl, other _ _ rfl⟩

end Scriptlet
