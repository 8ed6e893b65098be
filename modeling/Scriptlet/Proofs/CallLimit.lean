import Scriptlet.Engine
import Scriptlet.Proofs.Story

/-!
# The limit on calls

A limit on open calls decides how far a run gets, and nothing else. A run that does not hit
its limit is the same under every higher limit; one that does has written the beginning of
what a higher limit lets it write.
-/

namespace Scriptlet

open Eval

/-- The lines that were written to a sink. -/
def Sink.written (sink : Sink) : List String :=
  sink.lines.toList

theorem Sink.written_log (sink : Sink) (line : String) :
    sink.written <+: (sink.log line).2.written := by
  have pushed : sink.written <+: (sink.lines.push line).toList := by
    rw [Array.toList_push]
    exact List.prefix_append _ _
  unfold Sink.log
  split
  · exact List.prefix_rfl
  · dsimp only
    split <;> exact pushed

namespace Story

variable {α : Type} {aftermath : Store → Store} {openCalls : Nat}

theorem machineAfter_conclude (story : Story α) (openCalls : Nat) (sink : Sink) :
    machineAfter (story.conclude openCalls sink) = ⟨story.store, sink, openCalls⟩ := by
  unfold conclude
  cases story.result <;> rfl

/-- Moments are either refused, and then it does not matter what would come next, or all
taken, and then what comes next decides. -/
theorem follow_cases (aftermath : Store → Store) (openCalls : Nat) (moments : List Moment)
    (sink : Sink) :
    (∃ reason machine, ∀ next : Sink → EStateM.Result Error Machine α,
        follow aftermath openCalls next moments sink = .error (.output reason) machine) ∨
      ∃ taken, ∀ next : Sink → EStateM.Result Error Machine α,
        follow aftermath openCalls next moments sink = next taken := by
  induction moments generalizing sink with
  | nil => exact .inr ⟨sink, fun _ => rfl⟩
  | cons moment rest ih =>
    rcases logged : sink.log moment.line with ⟨_ | reason, after⟩
    · simp only [follow, logged]
      exact ih after
    · simp only [follow, logged]
      exact .inl ⟨reason, _, fun _ => rfl⟩

/-- Telling a story takes no line back. -/
theorem written_follow {next : Sink → EStateM.Result Error Machine α}
    (grows : ∀ sink : Sink, sink.written <+: (machineAfter (next sink)).sink.written)
    (moments : List Moment) (sink : Sink) :
    sink.written <+:
      (machineAfter (follow aftermath openCalls next moments sink)).sink.written := by
  induction moments generalizing sink with
  | nil => exact grows sink
  | cons moment rest ih =>
    have longer := sink.written_log moment.line
    rcases logged : sink.log moment.line with ⟨_ | reason, after⟩
    · rw [logged] at longer
      simp only [follow, logged]
      exact longer.trans (ih after)
    · rw [logged] at longer
      simp only [follow, logged]
      exact longer

theorem written_conclude (story : Story α) (openCalls : Nat) (sink : Sink) :
    sink.written <+: (machineAfter (story.conclude openCalls sink)).sink.written := by
  simp [machineAfter_conclude]

end Story

open Story

/-- A run that does not hit its limit on calls has the same result, output and final store
under every higher limit. A run that hits it has written the beginning of the output under a
higher limit. -/
theorem limit_only_adds_failures {limit limit' : Nat} (le : limit ≤ limit') (scope : FrameId)
    (program : Program) (machine : Machine) :
    ((∀ bound after, runProgram limit scope program machine ≠ .error (.tooDeep bound) after) →
        runProgram limit' scope program machine = runProgram limit scope program machine) ∧
      ∀ bound after, runProgram limit scope program machine = .error (.tooDeep bound) after →
        after.sink.written <+:
          (machineAfter (runProgram limit' scope program machine)).sink.written := by
  obtain ⟨store, sink, openCalls⟩ := machine
  obtain ⟨story, other, tells, tells', cut⟩ :=
    exists_cutShort le scope program store openCalls
  rw [tells sink, tells' sink]
  rcases cut with rfl | ⟨-, deep, more, longer⟩
  · refine ⟨fun _ => rfl, fun bound after fails => ?_⟩
    rw [fails]
    exact List.prefix_rfl
  · -- both runs tell the moments of the shorter story first
    have split : other.tell id openCalls sink =
        follow id openCalls (follow id openCalls (other.conclude openCalls) more) story.moments
          sink := by
      unfold Story.tell
      rw [← longer, follow_append]
    rw [split]
    unfold Story.tell
    rcases follow_cases id openCalls story.moments sink with
      ⟨reason, machine, refused⟩ | ⟨taken, goes⟩
    · rw [refused, refused]
      exact ⟨fun _ => rfl, nofun⟩
    · rw [goes, goes]
      have stops : story.conclude openCalls taken =
          .error (.tooDeep limit) ⟨story.store, taken, openCalls⟩ := by
        unfold conclude
        rw [deep]
      rw [stops]
      refine ⟨fun within => absurd rfl (within _ _), ?_⟩
      rintro _ _ ⟨⟩
      exact written_follow (other.written_conclude openCalls) more taken

/-- A function that writes a line and then calls itself without end. -/
def chattyRecursion : Program :=
  ⟨[.function ⟨some "f", [],
      [.expression (.call (.member (.identifier "console") "log") [⟨false, .string "in"⟩]),
        .return_ (some (.call (.identifier "f") []))], false⟩,
    .expression (.call (.identifier "f") [])]⟩

/-- A function that is called once. -/
def singleCall : Program :=
  ⟨[.function ⟨some "f", [], [.return_ (some (.string "out"))], false⟩,
    .expression (.call (.identifier "f") [])]⟩

/-- A limit of one call is enough for one call, so five give the same. An endless recursion
writes two lines under a limit of two calls, and then more under a limit of three. -/
theorem chattyRecursion_cut :
    runProgram 5 Engine.global singleCall ⟨Engine.initialStore, .unlimited, 0⟩ =
        runProgram 1 Engine.global singleCall ⟨Engine.initialStore, .unlimited, 0⟩ ∧
      ∃ after, runProgram 2 Engine.global chattyRecursion ⟨Engine.initialStore, .unlimited, 0⟩ =
          .error (.tooDeep 2) after ∧
        after.sink.written = ["in", "in"] ∧
        after.sink.written <+: (machineAfter (runProgram 3 Engine.global chattyRecursion
          ⟨Engine.initialStore, .unlimited, 0⟩)).sink.written := by
  constructor
  · refine (limit_only_adds_failures (by decide) _ _ _).1 ?_
    intro bound after fails
    cases fails
  · have le : 2 ≤ 3 := by decide
    exact ⟨_, rfl, rfl, (limit_only_adds_failures le _ _ _).2 _ _ rfl⟩

end Scriptlet
