import Scriptlet.Engine
import Scriptlet.Proofs.CallLimit

/-!
# Sinks that refuse

A sink that refuses lines cuts a run off and changes nothing else. If the run has no more lines
than the sink takes, it is the run on a sink that takes everything. Otherwise it ends at the
first line that is refused: a line that could not be written is not in the output, one that
could not be flushed is.
-/

namespace Scriptlet

open Eval

namespace Sink

/-- A sink that refuses as told, and is the same otherwise. -/
def refusing (sink : Sink) (write flush : Option Refusal) : Sink :=
  { sink with writeRefusal := write, flushRefusal := flush }

/-- A sink after it took lines. -/
def taking (sink : Sink) (lines : List String) : Sink :=
  { sink with lines := sink.lines ++ lines.toArray, flushes := sink.flushes + lines.length }

/-- Whether a sink takes so many lines more. -/
def Takes (sink : Sink) (count : Nat) : Prop :=
  ∀ refusal, sink.writeRefusal = some refusal ∨ sink.flushRefusal = some refusal →
    sink.flushes + count ≤ refusal.after

theorem Takes.mono {sink : Sink} {few many : Nat} (le : few ≤ many) (takes : sink.Takes many) :
    sink.Takes few := by
  intro refusal told
  have bound := takes refusal told
  omega

theorem refuses?_eq_none {sink : Sink} {told : Option Refusal}
    (later : ∀ refusal, told = some refusal → sink.flushes < refusal.after) :
    sink.refuses? told = none := by
  cases told with
  | none => rfl
  | some refusal =>
    have bound := later refusal rfl
    exact if_neg (Nat.not_le.mpr bound)

theorem log_of_takes {sink : Sink} {count : Nat} (takes : sink.Takes (count + 1)) (line : String) :
    sink.log line = (none, sink.taking [line]) := by
  have write : sink.refuses? sink.writeRefusal = none := by
    apply refuses?_eq_none
    intro refusal told
    have bound := takes refusal (.inl told)
    omega
  have flush : sink.refuses? sink.flushRefusal = none := by
    apply refuses?_eq_none
    intro refusal told
    have bound := takes refusal (.inr told)
    omega
  simp [log, write, flush, taking]

theorem Takes.taking {sink : Sink} {count : Nat} {lines : List String}
    (takes : sink.Takes (lines.length + count)) : (sink.taking lines).Takes count := by
  intro refusal told
  have bound := takes refusal told
  show sink.flushes + lines.length + count ≤ refusal.after
  omega

theorem taking_cons (sink : Sink) (line : String) (lines : List String) :
    (sink.taking [line]).taking lines = sink.taking (line :: lines) := by
  simp [taking, Nat.add_assoc, Nat.add_comm 1]

theorem takes_refusing_none (sink : Sink) (count : Nat) :
    (sink.refusing none none).Takes count := by
  rintro _ (⟨⟨⟩⟩ | ⟨⟨⟩⟩)

theorem takes_refusing_left (sink : Sink) (reason : String) {count n : Nat} (le : count ≤ n) :
    (sink.refusing (some ⟨sink.flushes + n, reason⟩) none).Takes count := by
  rintro _ (⟨⟨⟩⟩ | ⟨⟨⟩⟩)
  exact Nat.add_le_add_left le _

theorem takes_refusing_right (sink : Sink) (reason : String) {count n : Nat} (le : count ≤ n) :
    (sink.refusing none (some ⟨sink.flushes + n, reason⟩)).Takes count := by
  rintro _ (⟨⟨⟩⟩ | ⟨⟨⟩⟩)
  exact Nat.add_le_add_left le _

/-- A refusal to write leaves the sink as it is. -/
theorem log_writeRefused {sink : Sink} {reason : String}
    (now : sink.writeRefusal = some ⟨sink.flushes, reason⟩) (line : String) :
    sink.log line = (some reason, sink) := by
  simp [log, refuses?, now]

/-- A refusal to flush comes when the line was written. -/
theorem log_flushRefused {sink : Sink} {reason : String} (writes : sink.writeRefusal = none)
    (now : sink.flushRefusal = some ⟨sink.flushes, reason⟩) (line : String) :
    sink.log line = (some reason, { sink with lines := sink.lines.push line }) := by
  simp [log, refuses?, writes, now]

end Sink

namespace Story

variable {α : Type} {aftermath : Store → Store} {openCalls : Nat} {sink : Sink}

/-- Moments whose lines are all taken lead on to what comes next. -/
theorem follow_of_takes (next : Sink → EStateM.Result Error Machine α) {moments : List Moment}
    (takes : sink.Takes moments.length) :
    follow aftermath openCalls next moments sink =
      next (sink.taking (moments.map (·.line))) := by
  induction moments generalizing sink with
  | nil => simp [follow, Sink.taking]
  | cons moment rest ih =>
    have left : (sink.taking [moment.line]).Takes rest.length :=
      Sink.Takes.taking (takes.mono (Nat.le_of_eq (Nat.add_comm _ _)))
    simp only [follow, Sink.log_of_takes takes, List.map_cons]
    rw [ih left, Sink.taking_cons]

/-- A line that is refused after `n` others were taken ends the story at its moment. -/
theorem tell_of_refused (story : Story α) {n : Nat} (inside : n < story.moments.length)
    (takes : sink.Takes n) {reason : String} {after : Sink}
    (refused : Sink.log ⟨sink.lines ++ (story.lines.take n).toArray, sink.flushes + n,
        sink.writeRefusal, sink.flushRefusal⟩ story.moments[n].line = (some reason, after)) :
    story.tell aftermath openCalls sink =
      .error (.output reason) ⟨aftermath story.moments[n].store, after, openCalls⟩ := by
  have split : story.moments =
      story.moments.take n ++ story.moments[n] :: story.moments.drop (n + 1) := by simp
  have short : (story.moments.take n).length = n := by simp [Nat.le_of_lt inside]
  have taken : sink.taking ((story.moments.take n).map (·.line)) =
      ⟨sink.lines ++ (story.lines.take n).toArray, sink.flushes + n,
        sink.writeRefusal, sink.flushRefusal⟩ := by
    simp [Sink.taking, lines, List.map_take, Nat.le_of_lt inside]
  calc story.tell aftermath openCalls sink
      = follow aftermath openCalls
          (follow aftermath openCalls (story.conclude openCalls)
            (story.moments[n] :: story.moments.drop (n + 1)))
          (story.moments.take n) sink := by rw [← follow_append, ← split]; rfl
    _ = .error (.output reason) ⟨aftermath story.moments[n].store, after, openCalls⟩ := by
        rw [follow_of_takes _ (short.symm ▸ takes), taken, follow, refused]

/-- What a sink that refuses to write after `n` more flushes makes of a story. -/
theorem tell_writeRefused (story : Story α) (sink : Sink) {n : Nat}
    (inside : n < story.moments.length) (reason : String) :
    story.tell aftermath openCalls (sink.refusing (some ⟨sink.flushes + n, reason⟩) none) =
      .error (.output reason) ⟨aftermath story.moments[n].store,
        ⟨sink.lines ++ (story.lines.take n).toArray, sink.flushes + n,
          some ⟨sink.flushes + n, reason⟩, none⟩, openCalls⟩ := by
  apply story.tell_of_refused inside
  · exact Sink.takes_refusing_left _ _ (Nat.le_refl _)
  · exact Sink.log_writeRefused rfl _

/-- What a sink that refuses to flush after `n` more flushes makes of a story. -/
theorem tell_flushRefused (story : Story α) (sink : Sink) {n : Nat}
    (inside : n < story.moments.length) (reason : String) :
    story.tell aftermath openCalls (sink.refusing none (some ⟨sink.flushes + n, reason⟩)) =
      .error (.output reason) ⟨aftermath story.moments[n].store,
        ⟨sink.lines ++ (story.lines.take (n + 1)).toArray, sink.flushes + n, none,
          some ⟨sink.flushes + n, reason⟩⟩, openCalls⟩ := by
  have last : story.lines.take (n + 1) = story.lines.take n ++ [story.moments[n].line] := by
    simp [lines, List.take_add_one, inside]
  apply story.tell_of_refused inside
  · exact Sink.takes_refusing_right _ _ (Nat.le_refl _)
  · rw [Sink.log_flushRefused rfl rfl, last]
    simp [Sink.refusing]

/-- A sink that takes all lines of a story lets it end, and what it would refuse after them
does not matter. -/
theorem tell_of_takes (story : Story α) (takes : sink.Takes story.moments.length) :
    story.tell aftermath openCalls sink =
      story.conclude openCalls (sink.taking story.lines) :=
  follow_of_takes _ takes

end Story

/-- A result, but with a sink that refuses as told. -/
def refusingAfter {α : Type} (write flush : Option Refusal) :
    EStateM.Result Error Machine α → EStateM.Result Error Machine α
  | .ok value machine => .ok value { machine with sink := machine.sink.refusing write flush }
  | .error error machine => .error error { machine with sink := machine.sink.refusing write flush }

theorem refusingAfter_conclude {α : Type} (story : Story α) (openCalls : Nat) (sink : Sink)
    (write flush : Option Refusal) :
    refusingAfter write flush (story.conclude openCalls sink) =
      story.conclude openCalls (sink.refusing write flush) := by
  unfold Story.conclude
  cases story.result <;> rfl

/-- A run writes the lines of some moments on a sink that refuses nothing. A sink that refuses
after `n` flushes changes nothing if there are at most `n` lines. Otherwise the run ends at the
moment of the first line that is refused. Whatever store there would be from then on, it would
end with that store: nothing is evaluated any more. -/
theorem refusal_truncates (limit : Nat) (scope : FrameId) (program : Program) (store : Store)
    (sink : Sink) (openCalls : Nat) (aftermath : Store → Store) :
    let run := fun sink => runProgram limit scope program ⟨store, sink, openCalls⟩
    let leaving := fun sink =>
      hostedProgram (callNativeLeaving aftermath) limit scope program ⟨store, sink, openCalls⟩
    let free := run (sink.refusing none none)
    ∃ moments : List Moment,
      let lines := moments.map (·.line)
      (machineAfter free).sink = (sink.refusing none none).taking lines ∧
      ∀ n reason,
        let refusal : Refusal := ⟨sink.flushes + n, reason⟩
        (moments.length ≤ n →
          run (sink.refusing (some refusal) none) = refusingAfter (some refusal) none free ∧
          run (sink.refusing none (some refusal)) = refusingAfter none (some refusal) free) ∧
        ∀ inside : n < moments.length,
          let writeFails := fun store => EStateM.Result.error (Error.output reason) (Machine.mk store
            ⟨sink.lines ++ (lines.take n).toArray, sink.flushes + n, some refusal, none⟩ openCalls)
          let flushFails := fun store => EStateM.Result.error (Error.output reason) (Machine.mk store
            ⟨sink.lines ++ (lines.take (n + 1)).toArray, sink.flushes + n, none, some refusal⟩
            openCalls)
          run (sink.refusing (some refusal) none) = writeFails moments[n].store ∧
          run (sink.refusing none (some refusal)) = flushFails moments[n].store ∧
          leaving (sink.refusing (some refusal) none) = writeFails (aftermath moments[n].store) ∧
          leaving (sink.refusing none (some refusal)) =
            flushFails (aftermath moments[n].store) := by
  intro run leaving free
  obtain ⟨story, tells, tells'⟩ := Story.exists_story limit aftermath scope program store openCalls
  have taken : free = story.conclude openCalls ((sink.refusing none none).taking story.lines) :=
    (tells _).trans (story.tell_of_takes (sink.takes_refusing_none _))
  refine ⟨story.moments, ?_, fun n reason => ⟨fun few => ?_, fun inside => ?_⟩⟩
  · rw [taken, Story.machineAfter_conclude]
    rfl
  · rw [taken, refusingAfter_conclude, refusingAfter_conclude]
    exact ⟨(tells _).trans (story.tell_of_takes (sink.takes_refusing_left reason few)),
      (tells _).trans (story.tell_of_takes (sink.takes_refusing_right reason few))⟩
  · exact ⟨(tells _).trans (story.tell_writeRefused sink inside reason),
      (tells _).trans (story.tell_flushRefused sink inside reason),
      (tells' _).trans (story.tell_writeRefused sink inside reason),
      (tells' _).trans (story.tell_flushRefused sink inside reason)⟩

/-- A script that writes two lines. -/
def twoLines : Program :=
  ⟨[.expression (.call (.member (.identifier "console") "log") [⟨false, .string "a"⟩]),
    .expression (.call (.member (.identifier "console") "log") [⟨false, .string "b"⟩])]⟩

/-- With one flush, the second line is in the output only if it is the flush that fails. -/
theorem twoLines_truncated : ∃ store : Store,
    runProgram 1 Engine.global twoLines
        ⟨Engine.initialStore, Sink.unlimited.refusing (some ⟨1, "full"⟩) none, 0⟩ =
      .error (.output "full") ⟨store, ⟨#["a"], 1, some ⟨1, "full"⟩, none⟩, 0⟩ ∧
    runProgram 1 Engine.global twoLines
        ⟨Engine.initialStore, Sink.unlimited.refusing none (some ⟨1, "full"⟩), 0⟩ =
      .error (.output "full") ⟨store, ⟨#["a", "b"], 1, none, some ⟨1, "full"⟩⟩, 0⟩ := by
  obtain ⟨moments, free, refused⟩ :=
    refusal_truncates 1 Engine.global twoLines Engine.initialStore .unlimited 0 id
  have lines : moments.map (·.line) = ["a", "b"] := by
    have output : ["a", "b"] = Sink.written _ := congrArg Sink.written free
    simpa [Sink.written, Sink.taking, Sink.refusing, Sink.unlimited] using output.symm
  have two : moments.length = 2 := by
    rw [← List.length_map (·.line), lines]
    rfl
  obtain ⟨write, flush, -⟩ := (refused 1 "full").2 (by omega)
  rw [lines] at write flush
  exact ⟨_, write, flush⟩

end Scriptlet
