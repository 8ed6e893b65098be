import Scriptlet.Proofs.History
import Scriptlet.Proofs.Termination
import Scriptlet.Proofs.Watch

/-!
# The number of open calls

Every evaluation ends with the number of open calls that it began with, however it ends. While it
lasts, the number stays within the limit: if it is looked at whenever a function is called and
whenever a body begins and ends, the check never fails. A call that is closed is therefore always
one that was opened, and a run that failed leaves all calls to the next one.
-/

namespace Scriptlet

open Eval

/-! ## Watching the number -/

namespace Eval

variable {α : Type}

/-- Runs a computation under watch: the number of open calls has to be between two bounds at its
beginning, and the same again at its end. If it is not, `breach` goes on in its place. -/
def watched (least most : Nat) (breach x : Eval α) : Eval α :=
  checked (fun machine => least ≤ machine.openCalls ∧ machine.openCalls ≤ most)
    (fun before _ after => after.openCalls = before.openCalls) breach x

/-- The watch on the number of open calls. No more calls are open than the limit says, and while a
body runs there is one to close. -/
def Watch.onOpenCalls (limit : Nat) (breach : Eval Value) : Watch where
  call _ := watched 0 limit breach
  body _ := watched 1 limit breach

/-- Calls a function under watch, with all the calls that the machine leaves room for. -/
def watchedWithin (limit : Nat) (breach : Eval Value) : Call :=
  (Watch.onOpenCalls limit breach).within limit

/-- Runs a script with all its calls under watch. -/
def watchedProgram (limit : Nat) (breach : Eval Value) (scope : FrameId) (program : Program) :
    Eval Value :=
  (Watch.onOpenCalls limit breach).program limit scope program

end Eval

namespace Regime

variable {regime : Regime} {openCalls : Nat} {footing : Footing} {α : Type}

/-- Every machine stands where anything is known. -/
theorem any_stands (machine : Machine) : any.Stands machine.openCalls .all machine :=
  ⟨rfl, machine.store.known_all⟩

/-- A computation that ends with the number it began with passes the watch. -/
theorem Agree.watched {post : Footing → α → Prop} {x y : Eval α} {least most : Nat}
    (low : least ≤ openCalls) (high : openCalls ≤ most) (breach : Eval α)
    (agree : regime.Agree openCalls footing post x y) :
    regime.Agree openCalls footing post (Eval.watched least most breach x) y := by
  intro machine stands
  obtain ⟨same, ends⟩ := agree machine stands
  have balanced : openAfter (x machine) = machine.openCalls :=
    ends.openAfter_eq.trans stands.openCalls.symm
  have begun : least ≤ machine.openCalls ∧ machine.openCalls ≤ most := by
    rw [stands.openCalls]
    exact ⟨low, high⟩
  have unwatched : Eval.watched least most breach x machine = x machine :=
    checked_eq breach begun (fun value after result => by rwa [result] at balanced)
      fun error after result => by rwa [result] at balanced
  rw [unwatched]
  exact ⟨same, ends⟩

end Regime

/-- The watch on the number of open calls lets all evaluation pass that begins within the limit. -/
theorem Eval.Watch.silent_onOpenCalls (limit : Nat) (breach : Eval Value) :
    (onOpenCalls limit breach).Silent limit (fun _ : Unit => Store.Known.invariant _)
      (· ≤ limit) where
  deeper _ below := below
  call within _ same i := Regime.Agree.watched (Nat.zero_le _) within breach (same i)
  body within _ same i := Regime.Agree.watched (Nat.le_add_left 1 _) within breach (same i)

/-! ## Runs under watch -/

section

variable {limit : Nat} {machine : Machine}

theorem watchedWithin_eq (within : machine.openCalls ≤ limit) (breach : Eval Value)
    (function : Function) (receiver : Option Value) (arguments : List Value) :
    watchedWithin limit breach function receiver arguments machine =
      callWithin limit function receiver arguments machine :=
  (Watch.silent_onOpenCalls limit breach).within_eq (i := ()) within machine.store.known_all
    function.known_all (fun value _ => value.known_all) fun value _ => value.known_all

theorem calls_watchedWithin {openCalls : Nat} (within : openCalls ≤ limit) (breach : Eval Value) :
    (Regime.any.tracking openCalls).Calls (watchedWithin limit breach) (callWithin limit) :=
  (Watch.silent_onOpenCalls limit breach).calls_within within ()

theorem watchedProgram_eq (within : machine.openCalls ≤ limit) (breach : Eval Value)
    (scope : FrameId) (program : Program) :
    watchedProgram limit breach scope program machine = runProgram limit scope program machine :=
  (Watch.silent_onOpenCalls limit breach).program_eq (i := ()) within machine.store.known_all
    trivial program

theorem evalExpr_watchedWithin (within : machine.openCalls ≤ limit) (breach : Eval Value)
    (scope : FrameId) (expr : Expr) :
    evalExpr (watchedWithin limit breach) scope expr machine =
      evalExpr (callWithin limit) scope expr machine :=
  (Discipline.relates_evalExpr (calls_watchedWithin within breach) expr trivial
    (expr.every_of_forall fun _ => trivial) machine (Regime.any_stands machine)).1

theorem runStmts_watchedWithin (within : machine.openCalls ≤ limit) (breach : Eval Value)
    (scope : FrameId) (body : List Stmt) :
    runStmts (watchedWithin limit breach) scope body machine =
      runStmts (callWithin limit) scope body machine :=
  (Discipline.relates_runStmts (calls_watchedWithin within breach) trivial
    (everyStmt_of_forall (fun _ => trivial) body) machine (Regime.any_stands machine)).1

end

/-! ## Balance -/

theorem openAfter_runProgram (limit : Nat) (scope : FrameId) (program : Program)
    (machine : Machine) :
    openAfter (runProgram limit scope program machine) = machine.openCalls := by
  have stands := Regime.any_stands machine
  have every := everyStmt_of_forall (fun _ => trivial) program.body
  exact (Regime.any.runProgram_ends limit stands trivial every).openAfter_eq

theorem openAfter_callWithin (limit : Nat) (function : Function) (receiver : Option Value)
    (arguments : List Value) (machine : Machine) :
    openAfter (callWithin limit function receiver arguments machine) = machine.openCalls := by
  have stands := Regime.any_stands machine
  exact (Regime.any.callWithin_ends limit stands function.known_all
    (fun value _ => value.known_all) fun value _ => value.known_all).openAfter_eq

theorem openAfter_evalExpr (limit : Nat) (scope : FrameId) (expr : Expr) (machine : Machine) :
    openAfter (evalExpr (callWithin limit) scope expr machine) = machine.openCalls := by
  have stands := Regime.any_stands machine
  have every := expr.every_of_forall fun _ => trivial
  exact (Regime.any.evalExpr_ends limit stands trivial every).openAfter_eq

theorem openAfter_runStmts (limit : Nat) (scope : FrameId) (body : List Stmt) (machine : Machine) :
    openAfter (runStmts (callWithin limit) scope body machine) = machine.openCalls := by
  have stands := Regime.any_stands machine
  have every := everyStmt_of_forall (fun _ => trivial) body
  exact (Regime.any.runStmts_ends limit stands trivial every).openAfter_eq

/-- A script leaves an engine its limit, and the calls that were open before. -/
theorem Engine.evaluate_balance (engine : Engine) (code : String) :
    (engine.evaluate code).2.limit = engine.limit ∧
      (engine.evaluate code).2.machine.openCalls = engine.machine.openCalls := by
  unfold evaluate
  cases Program.parse code with
  | error error => exact ⟨rfl, rfl⟩
  | ok program =>
    have balanced := openAfter_runProgram engine.limit global program engine.machine
    unfold perform
    dsimp only
    cases result : runProgram engine.limit global program engine.machine with
    | ok value machine =>
      rw [result] at balanced
      exact ⟨rfl, balanced⟩
    | error error machine =>
      rw [result] at balanced
      exact ⟨rfl, balanced⟩

theorem Engine.afterAll_balance (engine : Engine) (codes : List String) :
    (engine.afterAll codes).limit = engine.limit ∧
      (engine.afterAll codes).machine.openCalls = engine.machine.openCalls := by
  induction codes generalizing engine with
  | nil => exact ⟨rfl, rfl⟩
  | cons first rest ih =>
    obtain ⟨sameLimit, sameCalls⟩ := engine.evaluate_balance first
    obtain ⟨laterLimit, laterCalls⟩ := ih (engine.evaluate first).2
    exact ⟨laterLimit.trans sameLimit, laterCalls.trans sameCalls⟩

/-- Programs, calls, expressions and statements end with as many open calls as they began with,
whether they fail or not. If they begin within the limit, no watch on the number is ever broken:
whatever a broken watch would do, they do the same under watch. An engine that ran any scripts has
all its calls left. -/
theorem open_calls_balance (limit : Nat) :
    (∀ machine : Machine,
      (∀ scope program,
        openAfter (runProgram limit scope program machine) = machine.openCalls) ∧
      (∀ function receiver arguments,
        openAfter (callWithin limit function receiver arguments machine) = machine.openCalls) ∧
      (∀ scope expr,
        openAfter (evalExpr (callWithin limit) scope expr machine) = machine.openCalls) ∧
      ∀ scope body,
        openAfter (runStmts (callWithin limit) scope body machine) = machine.openCalls) ∧
    (∀ (breach : Eval Value) (machine : Machine), machine.openCalls ≤ limit →
      (∀ scope program, watchedProgram limit breach scope program machine =
        runProgram limit scope program machine) ∧
      (∀ function receiver arguments,
        watchedWithin limit breach function receiver arguments machine =
          callWithin limit function receiver arguments machine) ∧
      (∀ scope expr, evalExpr (watchedWithin limit breach) scope expr machine =
        evalExpr (callWithin limit) scope expr machine) ∧
      ∀ scope body, runStmts (watchedWithin limit breach) scope body machine =
        runStmts (callWithin limit) scope body machine) ∧
    ∀ (sink : Sink) (codes : List String),
      ((Engine.new limit sink).afterAll codes).limit = limit ∧
        ((Engine.new limit sink).afterAll codes).machine.openCalls = 0 := by
  refine ⟨fun machine => ⟨fun scope program => ?_, fun function receiver arguments => ?_,
    fun scope expr => ?_, fun scope body => ?_⟩, fun breach machine within => ?_,
    fun sink codes => ?_⟩
  · exact openAfter_runProgram limit scope program machine
  · exact openAfter_callWithin limit function receiver arguments machine
  · exact openAfter_evalExpr limit scope expr machine
  · exact openAfter_runStmts limit scope body machine
  · exact ⟨watchedProgram_eq within breach, watchedWithin_eq within breach,
      evalExpr_watchedWithin within breach, runStmts_watchedWithin within breach⟩
  · exact (Engine.new limit sink).afterAll_balance codes

/-- At a limit of three calls a function that calls itself without end fails, with no watch broken
on the way and no call left open. -/
theorem selfCalling_balanced :
    0 ≤ 3 ∧
      watchedProgram 3 (throw .overflow) Engine.global selfCalling
          ⟨Engine.initialStore, .unlimited, 0⟩ =
        runProgram 3 Engine.global selfCalling ⟨Engine.initialStore, .unlimited, 0⟩ ∧
      ∃ after, runProgram 3 Engine.global selfCalling ⟨Engine.initialStore, .unlimited, 0⟩ =
        .error (.tooDeep 3) after ∧ after.openCalls = 0 := by
  obtain ⟨balance, watch, -⟩ := open_calls_balance 3
  have unbroken := (watch (throw .overflow) ⟨Engine.initialStore, .unlimited, 0⟩
    (Nat.zero_le 3)).1 Engine.global selfCalling
  have closed := (balance ⟨Engine.initialStore, .unlimited, 0⟩).1 Engine.global selfCalling
  have fails : ∃ after, runProgram 3 Engine.global selfCalling
      ⟨Engine.initialStore, .unlimited, 0⟩ = .error (.tooDeep 3) after := ⟨_, rfl⟩
  obtain ⟨after, ended⟩ := fails
  rw [ended] at closed
  exact ⟨Nat.zero_le 3, unbroken, after, ended, closed⟩

end Scriptlet
