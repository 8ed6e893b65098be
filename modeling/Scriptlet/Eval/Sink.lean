/-!
# Output

Lines are written to a sink and flushed one by one. A sink can be told to refuse writing or
flushing after a number of lines.
-/

namespace Scriptlet

/-- When and why a sink refuses. -/
structure Refusal where
  /-- The number of flushes after which the sink refuses. -/
  after : Nat
  reason : String
  deriving Repr, DecidableEq

/-- Where output goes. -/
structure Sink where
  /-- The lines that were written, without their line breaks. -/
  lines : Array String
  /-- How many flushes succeeded. -/
  flushes : Nat
  writeRefusal : Option Refusal
  flushRefusal : Option Refusal
  deriving Repr, DecidableEq

namespace Sink

/-- A sink that refuses nothing. -/
def unlimited : Sink := ⟨#[], 0, none, none⟩

/-- Why the sink refuses now, if it does. -/
def refuses? (sink : Sink) (refusal : Option Refusal) : Option String :=
  match refusal with
  | some ⟨after, reason⟩ => if after ≤ sink.flushes then some reason else none
  | none => none

/-- Writes and flushes a line. A refusal to flush comes after the line was written. -/
def log (sink : Sink) (line : String) : Option String × Sink :=
  match sink.refuses? sink.writeRefusal with
  | some reason => (some reason, sink)
  | none =>
    let written := { sink with lines := sink.lines.push line }
    match sink.refuses? sink.flushRefusal with
    | some reason => (some reason, written)
    | none => (none, { written with flushes := sink.flushes + 1 })

/-- Everything that was written after the first `skip` lines. -/
def text (sink : Sink) (skip : Nat := 0) : String :=
  String.join ((sink.lines.toList.drop skip).map (· ++ "\n"))

end Sink
end Scriptlet
