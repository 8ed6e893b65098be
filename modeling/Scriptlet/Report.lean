import Scriptlet.Engine
import Scriptlet.Text.Position

/-!
# Running a file

What the command line prints for a script: its output, and after a failure one line that
says where and why.
-/

namespace Scriptlet

/-- What a run of the command line leaves behind. -/
structure Report where
  exitCode : UInt8
  output : String
  errors : String
  deriving Repr, DecidableEq

namespace Report

/-- A failure after some output. -/
def failure (output message : String) : Report :=
  ⟨1, output, "error: " ++ message ++ "\n"⟩

/-- An error with its place in the script, if it has one. -/
def locate (path code : String) (error : Error) : String :=
  match error.position?.bind (Text.Position.ofOffset? code) with
  | some position =>
    path ++ ":" ++ toString position.line ++ ":" ++ toString position.column ++ ": " ++
      error.message
  | none => error.message

/-- The report on a file that cannot be read. -/
def unreadable (path reason : String) : Report :=
  failure "" ("cannot read " ++ path ++ ": " ++ reason)

/-- The report on a script. -/
def ofCode (path code : String) : Report :=
  match (Engine.new Engine.defaultLimit .unlimited).evaluate code with
  | (.ok _, engine) => ⟨0, engine.machine.sink.text, ""⟩
  | (.error error, engine) =>
    failure engine.machine.sink.text (locate path code error)

/-- The report on a file. -/
def ofBytes (path : String) (bytes : ByteArray) : Report :=
  match String.fromUTF8? bytes with
  | some code => ofCode path code
  | none => unreadable path "stream did not contain valid UTF-8"

/-- The report on a file that is not there. -/
def missing (path : String) : Report :=
  unreadable path "No such file or directory (os error 2)"

end Report
end Scriptlet
