import Scriptlet.Proofs.Discipline.Tracking

/-!
# Evaluation under watch

A watch is put around every call that evaluation makes, and around every body that a call runs. It
can look at the machine there and go its own way. If it is silent, which means that it lets pass
what ends as evaluation does, then nothing is left of it: evaluation under watch is evaluation.

* `Watch.function`, `Watch.program`: calls and scripts under watch;
* `Watch.Silent`: what a watch has to let pass;
* `Silent.calls`: calls under a silent watch do what calls do.
-/

namespace Scriptlet

namespace Eval

variable {α : Type}

/-- Runs a computation between two checks, one of the machine that it finds, and one of both
machines and of the value that it returns, if it does. Where a check fails, `breach` goes on. -/
def checked (begins : Machine → Prop) (ends : Machine → Option α → Machine → Prop)
    [DecidablePred begins] [∀ before value? after, Decidable (ends before value? after)]
    (breach x : Eval α) : Eval α := fun machine =>
  if begins machine then
    match x machine with
    | .ok value after => if ends machine (some value) after then .ok value after else breach after
    | .error error after => if ends machine none after then .error error after else breach after
  else
    breach machine

/-- Where no check fails, nothing is left of them. -/
theorem checked_eq {begins : Machine → Prop} {ends : Machine → Option α → Machine → Prop}
    [DecidablePred begins] [∀ before value? after, Decidable (ends before value? after)]
    {x : Eval α} {machine : Machine} (breach : Eval α) (begun : begins machine)
    (returned : ∀ value after, x machine = .ok value after → ends machine (some value) after)
    (failed : ∀ error after, x machine = .error error after → ends machine none after) :
    checked begins ends breach x machine = x machine := by
  unfold checked
  rw [if_pos begun]
  cases result : x machine with
  | ok value after => exact if_pos (returned value after result)
  | error error after => exact if_pos (failed error after result)

/-- What is put around calls, and around the bodies that they run. It is told the values that are
handed over, with the receiver first. -/
structure Watch where
  call : List Value → Eval Value → Eval Value
  body : List Value → Eval Value → Eval Value

namespace Watch

/-- Calls a function under watch, where the calls that its body makes are up to `call`. -/
def step (watch : Watch) (limit : Nat) (call : Call) : Call
  | .native _ behaviour, receiver, arguments =>
    watch.call (receiver.toList ++ arguments) (callNative behaviour arguments)
  | .script definition scope, receiver, arguments =>
    watch.call (receiver.toList ++ arguments)
      (if definition.isGenerator then
        throw (.unimplemented .generatorFunctions)
      else
        withCall limit
          (watch.body (receiver.toList ++ arguments)
            (callBody call definition scope receiver arguments)))

/-- Calls a function under watch, and so every call that is made on the way, with at most `room`
calls inside one another. -/
def function (watch : Watch) (limit : Nat) : Nat → Call
  | 0, _, _, _ => throw (.tooDeep limit)
  | room + 1, function, receiver, arguments =>
    watch.step limit (watch.function limit room) function receiver arguments

/-- Calls a function under watch, with all the calls that the machine leaves room for. -/
def within (watch : Watch) (limit : Nat) : Call := fun function receiver arguments machine =>
  watch.function limit (callRoom limit machine) function receiver arguments machine

/-- Runs a script with all its calls under watch. -/
def program (watch : Watch) (limit : Nat) (scope : FrameId) (program : Program) : Eval Value :=
  fun machine =>
    (Completion.value <$>
      runStmts (watch.function limit (callRoom limit machine)) scope program.body) machine

end Watch
end Eval

open Eval

/-- The regime that allows every tree and every error, for stores that keep to something. -/
def Regime.keeping {holds : Footing → Store → Prop}
    (invariant : Store.Invariant (fun _ => True) holds) : Regime :=
  { Regime.any with
    store := holds
    invariant := invariant }

namespace Eval.Watch

variable {ι : Type} {holds : ι → Footing → Store → Prop}
  {invariant : ∀ i, Store.Invariant (fun _ => True) (holds i)} {watch : Watch} {limit : Nat}
  {allowed : Nat → Prop}

/-- Two computations that do the same, whichever of the invariants the store keeps to. -/
def Same (invariant : ∀ i, Store.Invariant (fun _ => True) (holds i)) (openCalls : Nat)
    (footing : Footing) (x y : Eval Value) : Prop :=
  ∀ i, (Regime.keeping (invariant i)).Agree openCalls footing (Value.Known fun _ => True) x y

/-- A watch that lets pass what keeps to each of some invariants, if the number of open calls is
one that is allowed. -/
structure Silent (watch : Watch) (limit : Nat)
    (invariant : ∀ i, Store.Invariant (fun _ => True) (holds i)) (allowed : Nat → Prop) : Prop where
  deeper : ∀ {openCalls}, allowed openCalls → openCalls < limit → allowed (openCalls + 1)
  call : ∀ {openCalls footing handed x y}, allowed openCalls →
    (∀ value ∈ handed, value.Known (fun _ => True) footing) →
    Same invariant openCalls footing x y → Same invariant openCalls footing (watch.call handed x) y
  body : ∀ {openCalls footing handed x y}, allowed (openCalls + 1) →
    (∀ value ∈ handed, value.Known (fun _ => True) footing) →
    Same invariant (openCalls + 1) footing x y →
      Same invariant (openCalls + 1) footing (watch.body handed x) y

namespace Silent

/-- Calls under a silent watch do what calls do. The induction is on the room for calls; a body
runs with one more open call. -/
theorem calls (silent : watch.Silent limit invariant allowed) (room : Nat) {openCalls : Nat}
    (isAllowed : allowed openCalls) (i : ι) :
    ((Regime.keeping (invariant i)).tracking openCalls).Calls (watch.function limit room)
      (callFunction limit room) := by
  induction room generalizing openCalls i with
  | zero =>
    intro footing function receiver arguments _ _ _
    exact Discipline.keeps_throw trivial
  | succ room ih =>
    intro footing function receiver arguments known this given
    have handed : ∀ value ∈ receiver.toList ++ arguments, value.Known (fun _ => True) footing := by
      intro value member
      rcases List.mem_append.mp member with isReceiver | isArgument
      · exact this value (Option.mem_toList.mp isReceiver)
      · exact given value isArgument
    cases function with
    | native name behaviour =>
      exact silent.call isAllowed handed
        (fun j => Discipline.keeps_callNative Regime.keeps_writeLine behaviour given) i
    | script definition scope =>
      refine silent.call isAllowed handed (fun j => ?_) i
      simp only [callFunction, callStep]
      split
      -- a generator is refused before its call is opened
      · exact Discipline.keeps_throw
          (((Regime.keeping (invariant j)).tracking openCalls).arises ⟨rfl, rfl⟩)
      · refine Regime.Agree.withCall limit fun below => ?_
        have inner := silent.deeper isAllowed below
        exact silent.body inner handed
          (fun k => Discipline.relates_callBody (ih inner k) known this given) j

variable {footing : Footing} {machine : Machine} {i : ι}

theorem within_eq (silent : watch.Silent limit invariant allowed)
    (isAllowed : allowed machine.openCalls) (kept : holds i footing machine.store)
    {function : Function} {receiver : Option Value} {arguments : List Value}
    (known : function.Known (fun _ => True) footing)
    (this : ∀ value ∈ receiver, value.Known (fun _ => True) footing)
    (given : ∀ value ∈ arguments, value.Known (fun _ => True) footing) :
    watch.within limit function receiver arguments machine =
      callWithin limit function receiver arguments machine :=
  (silent.calls (callRoom limit machine) isAllowed i known this given machine ⟨rfl, kept⟩).1

theorem calls_within (silent : watch.Silent limit invariant allowed) {openCalls : Nat}
    (isAllowed : allowed openCalls) (i : ι) :
    ((Regime.keeping (invariant i)).tracking openCalls).Calls (watch.within limit)
      (callWithin limit) := by
  intro footing function receiver arguments known this given machine stands
  have same : watch.within limit function receiver arguments machine =
      callWithin limit function receiver arguments machine :=
    silent.within_eq (by rwa [stands.openCalls]) stands.holds known this given
  rw [same]
  exact ⟨rfl, Regime.callWithin_ends _ limit stands known this given⟩

theorem program_eq (silent : watch.Silent limit invariant allowed)
    (isAllowed : allowed machine.openCalls) (kept : holds i footing machine.store)
    {scope : FrameId} (place : footing.frame scope) (program : Program) :
    watch.program limit scope program machine = runProgram limit scope program machine := by
  have calls := silent.calls (callRoom limit machine) isAllowed i
  have run : ((Regime.keeping (invariant i)).tracking machine.openCalls).relates footing
      (fun _ _ => True)
      (Completion.value <$>
        runStmts (watch.function limit (callRoom limit machine)) scope program.body)
      (Completion.value <$>
        runStmts (callFunction limit (callRoom limit machine)) scope program.body) := by
    rw [map_eq_pure_bind, map_eq_pure_bind]
    have every := everyStmt_of_forall (fun _ => trivial) program.body
    exact Discipline.andThen (Discipline.relates_runStmts calls place every)
      fun _ _ _ => Discipline.keeps_pure trivial
  exact (run machine ⟨rfl, kept⟩).1

end Silent
end Eval.Watch
end Scriptlet
