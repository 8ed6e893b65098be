import Scriptlet.Proofs.CompoundAssignment
import Scriptlet.Proofs.Handles

/-!
# What literals find in a store

The parts of a literal are evaluated one after the other, and a spread takes what its object or
array has at that moment. Evaluation keeps every object and array canonical, so each spread
finds indices that ascend and names that are there once.
-/

namespace Scriptlet

open Eval

namespace Store

variable {store : Store} {object : Object}

theorem objectAt_addObject (store : Store) (object : Object) (id : ObjectId) :
    (store.addObject object).objectAt id =
      if id = store.nextObject then object else store.objectAt id := by
  unfold objectAt addObject nextObject
  rw [Array.getElem?_push]
  split <;> rfl

theorem Canonical.addObject (canonical : store.Canonical) (new : object.Canonical) :
    (store.addObject object).Canonical := by
  intro id
  rw [objectAt_addObject]
  split
  · exact new
  · exact canonical id

/-- A change of an object that is not there changes nothing. -/
theorem Canonical.modify (canonical : store.Canonical) {id : ObjectId} {change : Object → Object}
    (keeps : ∀ object : Object, object.Canonical → (change object).Canonical) :
    (store.modifyObject id change).Canonical := by
  by_cases inside : id < store.objects.size
  · exact canonical.modifyObject inside (keeps _ (canonical id))
  · have same : store.modifyObject id change = store := by
      simp [Store.modifyObject, Array.modify, Array.modifyM, inside]
    rw [same]
    exact canonical

/-- Whatever evaluation does to a store, it stays canonical. -/
theorem Canonical.invariant :
    Store.Invariant (fun _ => True) fun footing store => footing = .all ∧ store.Canonical where
  known := by
    rintro _ store ⟨rfl, -⟩
    exact store.known_all
  define := by
    rintro _ store scope value ⟨rfl, canonical⟩ _ _ name
    exact ⟨rfl, canonical⟩
  addFrame := by
    rintro _ store parent ⟨rfl, canonical⟩ _
    exact ⟨Footing.eq_all (Footing.all.le_withFrame _), canonical⟩
  addObject := by
    rintro _ store object ⟨rfl, canonical⟩ _ new
    exact ⟨Footing.eq_all (Footing.all.le_withObject _), canonical.addObject new⟩
  addArray := by
    rintro _ store object ⟨rfl, canonical⟩ _ new
    exact ⟨Footing.eq_all (Footing.all.le_withArray _), canonical.addObject new⟩
  addFunction holds := holds
  setProperty := by
    rintro _ store id value ⟨rfl, canonical⟩ _ _ key
    exact ⟨rfl, canonical.modify fun _ old => old.set key value⟩
  removeProperty := by
    rintro _ store id ⟨rfl, canonical⟩ _ key
    exact ⟨rfl, canonical.modify fun _ old => old.remove key⟩

end Store

/-- The regime of canonical stores, whatever is evaluated. -/
def Regime.canonical : Regime :=
  { Regime.any with
    store := fun footing store => footing = .all ∧ store.Canonical
    invariant := Store.Canonical.invariant }

namespace Eval

/-- Whether expressions and statements that make these calls leave canonical stores
canonical. -/
structure KeepsCanonical (call : Call) : Prop where
  expr : ∀ {scope : FrameId} {expr : Expr} {machine after : Machine} {value : Value},
    machine.store.Canonical → evalExpr call scope expr machine = .ok value after →
      after.store.Canonical
  stmt : ∀ {scope : FrameId} {stmt : Stmt} {machine after : Machine} {completion : Completion},
    machine.store.Canonical → runStmt call scope stmt machine = .ok completion after →
      after.store.Canonical

theorem canonical_of_ends {α : Type} {openCalls : Nat} {known : Footing → α → Prop}
    {result : EStateM.Result Error Machine α} {value : α} {after : Machine}
    (ends : Regime.canonical.Ends openCalls .all known result) (isOk : result = .ok value after) :
    after.store.Canonical := by
  rw [isOk] at ends
  obtain ⟨_, -, stands, -⟩ := ends
  exact stands.holds.2

theorem keepsCanonical_callFunction (limit room : Nat) :
    KeepsCanonical (callFunction limit room) where
  expr := by
    intro scope expr machine after value canonical evaluates
    have place : Footing.all.frame scope := trivial
    have every : expr.Every fun _ => True := expr.every_of_forall fun _ => trivial
    have calls := Regime.canonical.calls_callFunction limit room machine.openCalls
    exact canonical_of_ends (Discipline.relates_evalExpr calls expr place every machine
      ⟨rfl, rfl, canonical⟩).2 evaluates
  stmt := by
    intro scope stmt machine after completion canonical runs
    have place : Footing.all.frame scope := trivial
    have every : stmt.Every fun _ => True := stmt.every_of_forall fun _ => trivial
    have calls := Regime.canonical.calls_callFunction limit room machine.openCalls
    exact canonical_of_ends (Discipline.relates_runStmt calls stmt place every machine
      ⟨rfl, rfl, canonical⟩).2 runs

end Eval

namespace Engine

/-- Every store that scripts leave is canonical. -/
theorem afterAll_canonical (limit : Nat) (sink : Sink) (codes : List String) :
    ((new limit sink).afterAll codes).machine.store.Canonical := by
  have settled : (new limit sink).machine.store.Settled _ := initialStore_settled
  obtain ⟨after, isSettled⟩ := afterAll_settled settled rfl codes
  exact isSettled.canonicalStore

end Engine

end Scriptlet
