import Scriptlet.Proofs.Chaining

/-!
# Three ways to resolve an expression

An access is resolved in three places: for its value, as a callee, and as a target of an
assignment. All of them evaluate the same parts in the same order and fail alike. A callee has
the value of its expression, or is nothing where an optional chain ends; a target that is read
has the value of its expression.
-/

namespace Scriptlet

open Eval

variable {call : Call} {scope : FrameId} {machine after : Machine}

namespace Eval

/-- Whether an expression is an optional chain that ends at its object, which is null or
undefined. -/
def EndsAtObject (call : Call) (scope : FrameId) (machine : Machine) (expr : Expr) : Prop :=
  ∃ object access nullish middle, expr = .optional object access ∧
    evalExpr call scope object machine = .ok nullish middle ∧ nullish.isNullish = true

/-- A callee is nothing exactly where an optional chain ends. -/
theorem evalCallee_eq_none_iff {expr : Expr} {callee? : Option Callee}
    (resolves : evalCallee call scope expr machine = .ok callee? after) :
    callee? = none ↔ EndsAtObject call scope machine expr := by
  have there {callee : Callee} (unchained : ∀ object access, expr ≠ .optional object access) :
      some callee = none ↔ EndsAtObject call scope machine expr := by
    refine ⟨fun isNone => absurd isNone (Option.some_ne_none _), ?_⟩
    rintro ⟨object, access, _, _, isChain, _⟩
    exact absurd isChain (unchained object access)
  cases expr with
  | optional object access =>
    obtain ⟨target, middle, evaluates, resolves⟩ := bind_eq_ok resolves
    split at resolves
    · next isNullish =>
      cases resolves
      exact ⟨fun _ => ⟨object, access, target, after, rfl, evaluates, isNullish⟩, fun _ => rfl⟩
    · next isThere =>
      obtain ⟨found, last, -, isCallee⟩ := bind_eq_ok resolves
      cases isCallee
      refine ⟨fun isNone => absurd isNone (Option.some_ne_none _), ?_⟩
      rintro ⟨_, _, nullish, _, ⟨⟩, evaluates', isNullish⟩
      rw [evaluates] at evaluates'
      cases evaluates'
      exact absurd isNullish isThere
  | member object property =>
    obtain ⟨target, middle, -, resolves⟩ := bind_eq_ok resolves
    obtain ⟨found, last, -, isCallee⟩ := bind_eq_ok resolves
    cases isCallee
    exact there fun _ _ isChain => by cases isChain
  | index object key =>
    obtain ⟨target, middle, -, resolves⟩ := bind_eq_ok resolves
    obtain ⟨name, second, -, resolves⟩ := bind_eq_ok resolves
    obtain ⟨text, third, -, resolves⟩ := bind_eq_ok resolves
    obtain ⟨found, last, -, isCallee⟩ := bind_eq_ok resolves
    cases isCallee
    exact there fun _ _ isChain => by cases isChain
  | _ =>
    -- no access, so the callee is the value of the expression
    unfold evalCallee resolve evalAccessed at resolves
    rw [map_eq_pure_bind] at resolves
    obtain ⟨value, middle, -, isCallee⟩ := bind_eq_ok resolves
    cases isCallee
    exact there fun _ _ isChain => by cases isChain

/-- A chain that ends is resolved without an error. -/
theorem EndsAtObject.evalCallee {expr : Expr} (ends : EndsAtObject call scope machine expr) :
    ∃ after, evalCallee call scope expr machine = .ok none after := by
  obtain ⟨object, access, nullish, middle, rfl, evaluates, isNullish⟩ := ends
  refine ⟨middle, ?_⟩
  rw [Eval.evalCallee, evalAccessed, resolve, bind_of_ok evaluates, if_pos isNullish]
  rfl

/-- Reading a target that was resolved is evaluating it. The parentheses around a target are
passed by both. -/
theorem evalReference_get (call : Call) (scope : FrameId) (target : Expr)
    (isTarget : target.isTarget = true) :
    (do getReference (← evalReference call scope target)) = evalExpr call scope target := by
  match target with
  | .identifier name => rfl
  | .member object property =>
    simp only [evalReference, evalExpr, bind_assoc, pure_bind]
    rfl
  | .index object key =>
    simp only [evalReference, evalExpr, bind_assoc, pure_bind]
    rfl
  | .parenthesized inner =>
    simp only [evalReference, evalExpr]
    exact evalReference_get call scope inner isTarget

end Eval

/-- Resolving an expression as a callee fails as evaluating it does, and else has the same value
and leaves the same machine; it gives nothing exactly where an optional chain ends at null or
undefined, which has the value undefined. Reading what a target was resolved to is evaluating
the target. -/
theorem resolvers_agree (call : Call) (scope : FrameId) (expr : Expr) (machine : Machine) :
    (match evalCallee call scope expr machine with
      | .error error after =>
        evalExpr call scope expr machine = .error error after ∧
          ¬ EndsAtObject call scope machine expr
      | .ok (some callee) after =>
        evalExpr call scope expr machine = .ok callee.value after ∧
          ¬ EndsAtObject call scope machine expr
      | .ok none after =>
        evalExpr call scope expr machine = .ok .undefined after ∧
          EndsAtObject call scope machine expr) ∧
      (expr.isTarget = true →
        (do getReference (← evalReference call scope expr)) machine =
          evalExpr call scope expr machine) := by
  refine ⟨?_, fun isTarget => congrFun (evalReference_get call scope expr isTarget) machine⟩
  have value := congrFun (evalExpr_eq_evalCallee call scope expr) machine
  rw [map_eq_pure_bind] at value
  cases resolves : evalCallee call scope expr machine with
  | error error after =>
    rw [bind_of_error resolves] at value
    refine ⟨value, fun ends => ?_⟩
    obtain ⟨after', resolves'⟩ := ends.evalCallee
    rw [resolves] at resolves'
    cases resolves'
  | ok callee? after =>
    rw [bind_of_ok resolves] at value
    have ends := evalCallee_eq_none_iff resolves
    cases callee? with
    | none => exact ⟨value, ends.mp rfl⟩
    | some callee => exact ⟨value, fun isEnd => nomatch ends.mpr isEnd⟩

/-- `(this[k = "a"])`, whose object and key are made on the way. -/
def madeOnTheWay : Expr :=
  .parenthesized (.index .this (.assign (.identifier "k") (.string "a")))

/-- It can be assigned to, and reading what it is resolved to leaves the same new object and
variable behind as its evaluation. -/
theorem madeOnTheWay_resolved :
    madeOnTheWay.isTarget = true ∧ ∃ after, after.store.objects.size = 2 ∧
      evalExpr (callFunction 4 2) Engine.global madeOnTheWay idleMachine = .ok .undefined after ∧
      (do getReference (← evalReference (callFunction 4 2) Engine.global madeOnTheWay))
        idleMachine = .ok .undefined after := by
  have found : evalExpr (callFunction 4 2) Engine.global madeOnTheWay idleMachine =
      .ok .undefined _ := rfl
  have agree := (resolvers_agree (callFunction 4 2) Engine.global madeOnTheWay idleMachine).2 rfl
  exact ⟨rfl, _, rfl, found, agree.trans found⟩

end Scriptlet
