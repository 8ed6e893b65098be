import Scriptlet.Proofs.Resolution
import Scriptlet.Proofs.Scopes

/-!
# Compound assignments

`t += e` resolves its target once, `t = t + (e)` resolves it for writing and evaluates it for
reading. Both do the same if the parts of the target are names, `this` and literals: these can
be evaluated again without a further effect, even `this`, which makes an object where there is
none. What `e` does in between, to the target itself or to the names in it, makes no difference:
both have resolved the target by then, and both have read it.

* `evalExpr_simple`: evaluating a name, `this` or a literal again;
* `evalReference_again`: resolving a target with such parts again;
* `assignWith_eq_assign`, `assignWith_coalesce_eq`: a compound assignment is its expansion.
-/

namespace Scriptlet

open Eval

/-- Whether an expression is a name, `this` or a literal without parts. -/
def Expr.isSimple : Expr → Bool
  | .identifier _ | .this | .number _ | .string _ | .boolean _ | .null => true
  | _ => false

/-- Whether an expression is a variable, or a property of a simple expression whose key is
written out or a simple expression. -/
def Expr.isSimpleTarget : Expr → Bool
  | .identifier _ => true
  | .member owner _ => owner.isSimple
  | .index owner key => owner.isSimple && key.isSimple
  | _ => false

/-- Whether an assignment joins with the operator, and the operator always computes with both
operands: `+ - * / % ** << >> >>> & ^ |`. -/
def BinaryOp.computes : BinaryOp → Bool
  | .add | .subtract | .multiply | .divide | .remainder | .power | .shiftLeft | .shiftRight
  | .unsignedShiftRight | .bitAnd | .bitXor | .bitOr => true
  | _ => false

theorem Expr.isTarget_of_isSimpleTarget {target : Expr} (simple : target.isSimpleTarget = true) :
    target.isTarget = true := by
  cases target <;> first | rfl | cases simple

/-- A later store, in which the names that a scope knew have the values that they had. -/
structure Store.Retains (scope : FrameId) (before after : Store) : Prop where
  frames : after.frames.size = before.frames.size
  names : ∀ name value, before.resolve? scope name = some value →
    after.resolve? scope name = some value

theorem Store.Retains.refl (scope : FrameId) (store : Store) : store.Retains scope store :=
  ⟨rfl, fun _ _ found => found⟩

/-- A machine on which `this` was asked for in a scope without a receiver. -/
def Machine.withThis (machine : Machine) (scope : FrameId) : Machine :=
  { machine with
    store := (machine.store.addObject .empty).define scope "this"
      (.object machine.store.nextObject) }

variable {call : Call} {scope : FrameId} {machine after : Machine} {value : Value}

namespace Eval

/-! ## Expressions that can be evaluated again -/

section

variable {α : Type} {read : Store → Except Error α} {result : α}

theorem reading_of_ok (answers : read machine.store = .ok result) :
    reading read machine = .ok result machine := by
  unfold reading
  rw [answers]

/-- Reading does not change the machine. -/
theorem reading_eq_ok (reads : reading read machine = .ok result after) :
    read machine.store = .ok result ∧ after = machine := by
  unfold reading at reads
  cases answers : read machine.store with
  | error error =>
    rw [answers] at reads
    cases reads
  | ok other =>
    rw [answers] at reads
    cases reads
    exact ⟨rfl, rfl⟩

end

theorem lookup_of_some {name : String} (found : machine.store.resolve? scope name = some value) :
    lookup scope name machine = .ok value machine :=
  reading_of_ok (Store.lookup_eq_ok_iff.mpr found)

theorem thisValue_of_bound (bound : machine.store.resolve? scope "this" = some value) :
    thisValue scope machine = .ok value machine := by
  have isBound : binds scope "this" machine = .ok true machine :=
    reading_of_ok (by simp [Store.binds_eq_isSome_resolve?, bound])
  unfold thisValue
  rw [bind_of_ok isBound, if_pos rfl, lookup_of_some bound]

theorem thisValue_of_unbound (unbound : machine.store.resolve? scope "this" = none) :
    thisValue scope machine =
      .ok (.object machine.store.nextObject) (machine.withThis scope) := by
  have isUnbound : binds scope "this" machine = .ok false machine :=
    reading_of_ok (by simp [Store.binds_eq_isSome_resolve?, unbound])
  unfold thisValue
  rw [bind_of_ok isUnbound]
  rfl

/-- The new receiver is the only name that has changed, and it had no value. -/
theorem retains_withThis (unbound : machine.store.resolve? scope "this" = none) :
    machine.store.Retains scope (machine.withThis scope).store := by
  refine ⟨by simp [Machine.withThis, Store.define, Store.addObject], fun name value found => ?_⟩
  have different : name ≠ "this" := by
    rintro rfl
    rw [unbound] at found
    cases found
  rw [Machine.withThis, Store.resolve?_define_of_ne different, Store.resolve?_addObject]
  exact found

/-- A simple expression that was evaluated has the same value ever after, as long as names keep
their values, and evaluating it changes nothing then. -/
theorem evalExpr_simple {expr : Expr} (simple : expr.isSimple = true)
    (inside : scope < machine.store.frames.size)
    (evaluates : evalExpr call scope expr machine = .ok value after) :
    machine.store.Retains scope after.store ∧
      ∀ later : Machine, after.store.Retains scope later.store →
        evalExpr call scope expr later = .ok value later := by
  cases expr with
  | identifier name =>
    have looks : lookup scope name machine = .ok value after := evaluates
    obtain ⟨looked, rfl⟩ := reading_eq_ok looks
    have found := Store.lookup_eq_ok_iff.mp looked
    exact ⟨.refl scope _, fun later retains => lookup_of_some (retains.names name value found)⟩
  | this =>
    have again (bound : after.store.resolve? scope "this" = some value) (later : Machine)
        (retains : after.store.Retains scope later.store) :
        evalExpr call scope .this later = .ok value later :=
      thisValue_of_bound (retains.names "this" value bound)
    have asks : thisValue scope machine = .ok value after := evaluates
    cases bound : machine.store.resolve? scope "this" with
    | some receiver =>
      rw [thisValue_of_bound bound] at asks
      cases asks
      exact ⟨.refl scope _, again bound⟩
    | none =>
      rw [thisValue_of_unbound bound] at asks
      cases asks
      exact ⟨retains_withThis bound, again (Store.resolve?_define_self inside)⟩
  | number _ | string _ | boolean _ | null =>
    cases evaluates
    exact ⟨.refl scope _, fun _ _ => rfl⟩
  | _ => cases simple

/-- A simple target that was resolved is resolved in the same way again, with no further
effect. -/
theorem evalReference_again {target : Expr} (simple : target.isSimpleTarget = true)
    (inside : scope < machine.store.frames.size) {reference : Reference}
    (resolves : evalReference call scope target machine = .ok reference after) :
    evalReference call scope target after = .ok reference after := by
  cases target with
  | identifier name =>
    cases resolves
    rfl
  | member object property =>
    obtain ⟨owner, middle, evaluates, isReference⟩ := bind_eq_ok resolves
    cases isReference
    obtain ⟨-, again⟩ := evalExpr_simple simple inside evaluates
    rw [evalReference, bind_of_ok (again after (.refl scope _))]
    rfl
  | index object key =>
    obtain ⟨simpleObject, simpleKey⟩ := (Bool.and_eq_true _ _).mp simple
    obtain ⟨owner, first, evaluates, resolves⟩ := bind_eq_ok resolves
    obtain ⟨name, second, evaluatesKey, resolves⟩ := bind_eq_ok resolves
    obtain ⟨text, third, displays, isReference⟩ := bind_eq_ok resolves
    cases isReference
    obtain ⟨-, rfl⟩ := reading_eq_ok displays
    -- The key may have made `this`, which the object then still does not notice.
    obtain ⟨retains, again⟩ := evalExpr_simple simpleObject inside evaluates
    have insideFirst : scope < first.store.frames.size := retains.frames ▸ inside
    obtain ⟨retainsKey, againKey⟩ := evalExpr_simple simpleKey insideFirst evaluatesKey
    rw [evalReference, bind_of_ok (again _ retainsKey), bind_of_ok (againKey _ (.refl scope _)),
      bind_of_ok displays]
    rfl
  | _ => cases simple

/-! ## Expansions -/

/-- Reading a target right after it was resolved is evaluating it there. -/
theorem evalExpr_resolved {target : Expr} (simple : target.isSimpleTarget = true)
    (inside : scope < machine.store.frames.size) {reference : Reference}
    (resolves : evalReference call scope target machine = .ok reference after) :
    evalExpr call scope target after = getReference reference after := by
  rw [← evalReference_get call scope target (Expr.isTarget_of_isSimpleTarget simple),
    bind_of_ok (evalReference_again simple inside resolves)]

theorem shortCircuits_of_computes {op : BinaryOp} (computes : op.computes = true) (left : Value) :
    op.shortCircuits left = false := by
  cases op <;> first | rfl | cases computes

/-- `t op= e` is `t = t op (e)`. -/
theorem assignWith_eq_assign {op : BinaryOp} (computes : op.computes = true) {target : Expr}
    (simple : target.isSimpleTarget = true) (operand : Expr)
    (inside : scope < machine.store.frames.size) :
    evalExpr call scope (.assignWith op target operand) machine =
      evalExpr call scope (.assign target (.binary op target (.parenthesized operand)))
        machine := by
  simp only [evalExpr, shortCircuits_of_computes computes, Bool.false_eq_true, if_false]
  cases resolves : evalReference call scope target machine with
  | error error middle => rw [bind_of_error resolves, bind_of_error resolves]
  | ok reference middle =>
    rw [bind_of_ok resolves, bind_of_ok resolves]
    have reads := evalExpr_resolved simple inside resolves
    cases current : getReference reference middle with
    | error error last =>
      have fails := reads.trans current
      rw [bind_of_error current, bind_assoc, bind_of_error fails]
    | ok old last =>
      have found := reads.trans current
      rw [bind_of_ok current, bind_assoc, bind_of_ok found, bind_assoc]

/-- Where null or undefined is replaced, the operator adds nothing to the new value. -/
theorem binary_coalesce {old : Value} (isNullish : old.isNullish = true) (new : Value) :
    Eval.binary .coalesce old new = pure new := by
  funext machine
  unfold Eval.binary reading Store.binary
  simp only [isNullish, if_true]
  rfl

/-- `t ??= e` is `t ?? (t = e)`. -/
theorem assignWith_coalesce_eq {target : Expr} (simple : target.isSimpleTarget = true)
    (operand : Expr) (inside : scope < machine.store.frames.size) :
    evalExpr call scope (.assignWith .coalesce target operand) machine =
      evalExpr call scope
        (.binary .coalesce target (.parenthesized (.assign target operand))) machine := by
  simp only [evalExpr]
  rw [← evalReference_get call scope target (Expr.isTarget_of_isSimpleTarget simple), bind_assoc]
  cases resolves : evalReference call scope target machine with
  | error error middle => rw [bind_of_error resolves, bind_of_error resolves]
  | ok reference middle =>
    rw [bind_of_ok resolves, bind_of_ok resolves]
    cases current : getReference reference middle with
    | error error last => rw [bind_of_error current, bind_of_error current]
    | ok old last =>
      rw [bind_of_ok current, bind_of_ok current]
      obtain ⟨-, rfl⟩ := reading_eq_ok current
      split
      · rfl
      · next replaced =>
        have isNullish : old.isNullish = true := by
          simpa [BinaryOp.shortCircuits] using replaced
        rw [bind_assoc, bind_of_ok (evalReference_again simple inside resolves)]
        simp only [binary_coalesce isNullish, bind_assoc, pure_bind]

/-- `--t` is `t -= 1`, whatever the target is. -/
theorem decrement_eq_assignWith (call : Call) (scope : FrameId) (target : Expr) :
    evalExpr call scope (.update .decrement .before target) =
      evalExpr call scope (.assignWith .subtract target (.number 1)) := by
  simp only [evalExpr, BinaryOp.shortCircuits, Bool.false_eq_true, if_false, pure_bind]
  congr 1
  funext reference
  congr 1
  funext current machine
  have subtracted : Eval.binary .subtract current (.number 1) machine =
      (do return Value.number (updated .decrement (← toNumber current))) machine := by
    unfold Eval.binary reading Store.binary Value.arithmetic toNumber
    cases current.toNumber <;> rfl
  cases converts : toNumber current machine with
  | error error last =>
    rw [bind_of_error converts] at subtracted ⊢
    rw [bind_of_error subtracted]
  | ok old last =>
    rw [bind_of_ok converts] at subtracted ⊢
    rw [bind_of_ok subtracted]

end Eval

/-- A compound assignment is its expansion: `t op= e` does the same as `t = t op (e)`, and
`t ??= e` the same as `t ?? (t = e)`, for every `e` and every target that is a variable, or a
property whose object and key are names, `this` or literals. The scope is one of the frames of
the store. `--t` does the same as `t -= 1` for every target. -/
theorem compound_assignment_expands (call : Call) (machine : Machine) (scope : FrameId) :
    (scope < machine.store.frames.size →
      ∀ target : Expr, target.isSimpleTarget = true → ∀ operand : Expr,
        (∀ op : BinaryOp, op.computes = true →
          evalExpr call scope (.assignWith op target operand) machine =
            evalExpr call scope (.assign target (.binary op target (.parenthesized operand)))
              machine) ∧
        evalExpr call scope (.assignWith .coalesce target operand) machine =
          evalExpr call scope
            (.binary .coalesce target (.parenthesized (.assign target operand))) machine) ∧
    ∀ target : Expr,
      evalExpr call scope (.update .decrement .before target) machine =
        evalExpr call scope (.assignWith .subtract target (.number 1)) machine := by
  refine ⟨fun inside target simple operand => ⟨fun op computes => ?_, ?_⟩, fun target => ?_⟩
  · exact assignWith_eq_assign computes simple operand inside
  · exact assignWith_coalesce_eq simple operand inside
  · rw [decrement_eq_assignWith]

/-- In `console.n += (console = "x")` the operand gives the name in the target another value. The
property of the old object is read and written all the same, here and in
`console.n = console.n + (console = "x")`. -/
theorem reassigned_target_expands :
    Engine.global < idleMachine.store.frames.size ∧
      ∃ after, after.store.lookup Engine.global "console" = .ok (.string "x") ∧
        after.store.getProperty (.object 0) "n" = .ok (.string "undefinedx") ∧
        evalExpr (callFunction 4 2) Engine.global
            (.assignWith .add (.member (.identifier "console") "n")
              (.assign (.identifier "console") (.string "x"))) idleMachine =
          .ok (.string "undefinedx") after ∧
        evalExpr (callFunction 4 2) Engine.global
            (.assign (.member (.identifier "console") "n")
              (.binary .add (.member (.identifier "console") "n")
                (.parenthesized (.assign (.identifier "console") (.string "x"))))) idleMachine =
          .ok (.string "undefinedx") after := by
  have inside : Engine.global < idleMachine.store.frames.size := by decide
  have expands := ((compound_assignment_expands (callFunction 4 2) idleMachine Engine.global).1
    inside (.member (.identifier "console") "n") rfl
    (.assign (.identifier "console") (.string "x"))).1 .add rfl
  have found : evalExpr (callFunction 4 2) Engine.global
      (.assignWith .add (.member (.identifier "console") "n")
        (.assign (.identifier "console") (.string "x"))) idleMachine =
      .ok (.string "undefinedx") _ := rfl
  exact ⟨inside, _, rfl, rfl, found, expands.symm.trans found⟩

end Scriptlet
