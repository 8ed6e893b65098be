import Scriptlet.Proofs.Discipline.Evaluation

/-!
# Runs with a number of open calls

The discipline of two computations that do the same, as far as they start with a given
number of open calls. They end with that number again, in a store that still keeps to the
regime, and with an error that the regime allows if they fail. A call is one level deeper
than its caller.
-/

namespace Scriptlet

open Eval

/-- A machine with a number of open calls, whose store keeps to the regime. -/
structure Regime.Stands (regime : Regime) (openCalls : Nat) (footing : Footing)
    (machine : Machine) : Prop where
  openCalls : machine.openCalls = openCalls
  holds : regime.store footing machine.store

/-- How a computation ends: on a footing that has only grown. -/
def Regime.Ends {α : Type} (regime : Regime) (openCalls : Nat) (footing : Footing)
    (post : Footing → α → Prop) : EStateM.Result Error Machine α → Prop
  | .ok value machine =>
    ∃ after, footing ≤ after ∧ regime.Stands openCalls after machine ∧ post after value
  | .error error machine =>
    regime.raises error ∧ ∃ after, footing ≤ after ∧ regime.Stands openCalls after machine

/-- Two computations that do the same on a machine, and end as the regime asks. -/
def Regime.Agree {α : Type} (regime : Regime) (openCalls : Nat) (footing : Footing)
    (post : Footing → α → Prop) (x y : Eval α) : Prop :=
  ∀ machine : Machine, regime.Stands openCalls footing machine →
    x machine = y machine ∧ regime.Ends openCalls footing post (x machine)

namespace Regime

variable {regime : Regime} {openCalls : Nat} {footing : Footing} {α β : Type}

theorem Ends.from {after : Footing} {post : Footing → α → Prop}
    {result : EStateM.Result Error Machine α} (grows : footing ≤ after)
    (ends : regime.Ends openCalls after post result) :
    regime.Ends openCalls footing post result := by
  cases result with
  | ok value machine =>
    obtain ⟨last, grown, stands, holds⟩ := ends
    exact ⟨last, grows.trans grown, stands, holds⟩
  | error error machine =>
    obtain ⟨raises, last, grown, stands⟩ := ends
    exact ⟨raises, last, grows.trans grown, stands⟩

theorem Agree.bind {mid : Footing → α → Prop} {post : Footing → β → Prop} {x y : Eval α}
    {f g : α → Eval β} (first : regime.Agree openCalls footing mid x y)
    (next : ∀ after value, footing ≤ after → mid after value →
      regime.Agree openCalls after post (f value) (g value)) :
    regime.Agree openCalls footing post (x >>= f) (y >>= g) := by
  intro machine stands
  obtain ⟨same, ends⟩ := first machine stands
  show EStateM.bind x f machine = EStateM.bind y g machine ∧
    regime.Ends openCalls footing post (EStateM.bind x f machine)
  unfold EStateM.bind
  rw [← same]
  cases result : x machine with
  | ok value changed =>
    rw [result] at ends
    obtain ⟨after, grows, stands', holds⟩ := ends
    obtain ⟨same', ends'⟩ := next after value grows holds changed stands'
    exact ⟨same', ends'.from grows⟩
  | error error changed =>
    rw [result] at ends
    exact ⟨rfl, ends⟩

/-- The discipline of runs with a number of open calls. -/
def tracking (regime : Regime) (openCalls : Nat) : Discipline where
  toRegime := regime
  relates footing post x y := regime.Agree openCalls footing post x y
  bind first next := first.bind next
  attempts {α footing post change} answers := by
    intro machine stands
    refine ⟨rfl, ?_⟩
    have answer := answers machine.store stands.holds
    unfold attempting
    cases result : change machine.store with
    | ok pair =>
      rw [result] at answer
      obtain ⟨after, grows, known, holds⟩ := answer
      exact ⟨after, grows, ⟨stands.openCalls, known⟩, holds⟩
    | error error =>
      rw [result] at answer
      exact ⟨answer, footing, le_rfl, stands⟩

theorem keeps_writeLine (footing : Footing) (line : String) :
    (regime.tracking openCalls).Keeps footing (fun _ _ => True) (writeLine line) := by
  intro machine stands
  refine ⟨rfl, ?_⟩
  unfold writeLine
  split
  · exact ⟨regime.arises ⟨rfl, rfl⟩, footing, le_rfl, stands.openCalls, stands.holds⟩
  · exact ⟨footing, le_rfl, ⟨stands.openCalls, stands.holds⟩, trivial⟩

/-- Closing a call takes back what opening it added. -/
theorem Agree.withCall (limit : Nat) {post : Footing → α → Prop} {x y : Eval α}
    (body : openCalls < limit → regime.Agree (openCalls + 1) footing post x y) :
    regime.Agree openCalls footing post (withCall limit x) (withCall limit y) := by
  intro machine stands
  unfold Eval.withCall
  split
  · exact ⟨rfl, regime.arises ⟨rfl, rfl⟩, footing, le_rfl, stands⟩
  · next room =>
    rw [stands.openCalls] at room ⊢
    -- The call is closed however its body ends, so the number of open calls is the old one.
    obtain ⟨same, ends⟩ := body (by omega) { machine with openCalls := openCalls + 1 }
      ⟨rfl, stands.holds⟩
    rw [← same]
    cases result : x { machine with openCalls := openCalls + 1 } with
    | ok value changed =>
      rw [result] at ends
      obtain ⟨after, grows, stands', holds⟩ := ends
      exact ⟨rfl, after, grows, ⟨by simp [stands'.openCalls], stands'.holds⟩, holds⟩
    | error error changed =>
      rw [result] at ends
      obtain ⟨raises, after, grows, stands'⟩ := ends
      exact ⟨rfl, raises, after, grows, ⟨by simp [stands'.openCalls], stands'.holds⟩⟩

/-- Calls one level deeper that agree make calls that agree. -/
theorem calls_callStep (limit : Nat) {call call' : Call}
    (deeper : openCalls < limit → (regime.tracking (openCalls + 1)).Calls call call') :
    (regime.tracking openCalls).Calls (callStep limit call) (callStep limit call') := by
  rw [← hostedStep_callNative, ← hostedStep_callNative]
  exact Discipline.calls_hostedStep (regime.tracking openCalls) (regime.tracking (openCalls + 1)) rfl
    (fun _ behaviour _ => Discipline.keeps_callNative keeps_writeLine behaviour)
    (Agree.withCall limit) deeper

/-- However many calls there is room for, they end as the regime asks. -/
theorem calls_callFunction (regime : Regime) (limit room openCalls : Nat) :
    (regime.tracking openCalls).Calls (callFunction limit room) (callFunction limit room) := by
  induction room generalizing openCalls with
  | zero =>
    intro footing function receiver arguments _ _ _
    exact Discipline.keeps_throw ((regime.tracking openCalls).arises ⟨rfl, rfl⟩)
  | succ room ih => exact calls_callStep limit fun _ => ih (openCalls + 1)

/-- A script ends as the regime asks, on every machine that stands. -/
theorem runProgram_ends (regime : Regime) (limit : Nat) {scope : FrameId} {program : Program}
    {machine : Machine} (stands : regime.Stands openCalls footing machine)
    (place : footing.frame scope)
    (every : everyStmt regime.node program.body) :
    regime.Ends openCalls footing (Value.Known regime.node)
      (runProgram limit scope program machine) := by
  have run : (regime.tracking openCalls).Keeps footing (Value.Known regime.node)
      (Completion.value <$> runStmts (callFunction limit (callRoom limit machine)) scope
        program.body) := by
    rw [map_eq_pure_bind]
    exact (regime.tracking openCalls).bind
      (Discipline.relates_runStmts (calls_callFunction regime limit _ openCalls) place every)
      fun _ _ _ known => Discipline.keeps_pure known
  exact (run machine stands).2

/-- So does a call from outside. -/
theorem callWithin_ends (regime : Regime) (limit : Nat) {function : Function}
    {receiver : Option Value} {arguments : List Value} {machine : Machine}
    (stands : regime.Stands openCalls footing machine)
    (known : function.Known regime.node footing)
    (this : ∀ value ∈ receiver, value.Known regime.node footing)
    (given : ∀ value ∈ arguments, value.Known regime.node footing) :
    regime.Ends openCalls footing (Value.Known regime.node)
      (callWithin limit function receiver arguments machine) :=
  (calls_callFunction regime limit _ openCalls known this given machine stands).2

theorem calls_callWithin (regime : Regime) (limit openCalls : Nat) :
    (regime.tracking openCalls).Calls (callWithin limit) (callWithin limit) := by
  intro footing function receiver arguments known this given machine stands
  exact ⟨rfl, callWithin_ends regime limit stands known this given⟩

/-- So do single expressions. -/
theorem evalExpr_ends (regime : Regime) (limit : Nat) {scope : FrameId} {expr : Expr}
    {machine : Machine} (stands : regime.Stands openCalls footing machine)
    (place : footing.frame scope) (every : expr.Every regime.node) :
    regime.Ends openCalls footing (Value.Known regime.node)
      (evalExpr (callWithin limit) scope expr machine) :=
  (Discipline.relates_evalExpr (calls_callWithin regime limit openCalls) expr place every machine
    stands).2

/-- So do lists of statements. -/
theorem runStmts_ends (regime : Regime) (limit : Nat) {scope : FrameId} {body : List Stmt}
    {machine : Machine} (stands : regime.Stands openCalls footing machine)
    (place : footing.frame scope) (every : everyStmt regime.node body) :
    regime.Ends openCalls footing (regime.tracking openCalls).CompletionKnown
      (runStmts (callWithin limit) scope body machine) :=
  (Discipline.relates_runStmts (calls_callWithin regime limit openCalls) place every machine
    stands).2

end Regime
end Scriptlet
