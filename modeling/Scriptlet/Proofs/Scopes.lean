import Scriptlet.Proofs.Canonical
import Scriptlet.Store.Scope

/-!
# Variables after a definition

Defining a variable changes one name of one frame. Frames stay where they are, so every other
name means what it meant before, and the name itself has the new value in its own scope.
-/

namespace Scriptlet

namespace Store

variable {store : Store} {scope : FrameId} {name : String} {value : Value}

theorem bindings_define (store : Store) (scope : FrameId) (name : String) (value : Value)
    (frame : FrameId) :
    (store.define scope name value).bindings frame =
      if frame = scope ∧ scope < store.frames.size then (store.bindings frame).put name value
      else store.bindings frame := by
  unfold bindings define
  rw [Array.getElem?_modify]
  by_cases same : scope = frame
  · subst same
    by_cases inside : scope < store.frames.size
    · simp [inside]
    · simp [inside]
  · have different : ¬ frame = scope := fun equal => same equal.symm
    simp [same, different]

theorem local?_define_of_ne {other : String} (different : other ≠ name) (frame : FrameId) :
    (store.define scope name value).local? frame other = store.local? frame other := by
  unfold local?
  rw [bindings_define]
  split
  · rw [Dict.get?_put, if_neg different]
  · rfl

theorem local?_define_self (inside : scope < store.frames.size) :
    (store.define scope name value).local? scope name = some value := by
  unfold local?
  rw [bindings_define, if_pos ⟨rfl, inside⟩, Dict.get?_put, if_pos rfl]

theorem parent?_define (frame : FrameId) :
    (store.define scope name value).parent? frame = store.parent? frame := by
  unfold parent? define
  rw [Array.getElem?_modify]
  split
  · cases store.frames[frame]? <;> rfl
  · rfl

theorem chainUpTo_define (count : Nat) (start : FrameId) :
    (store.define scope name value).chainUpTo count start = store.chainUpTo count start := by
  induction count generalizing start with
  | zero => rfl
  | succ count ih =>
    unfold chainUpTo
    rw [parent?_define]
    cases store.parent? start with
    | none => rfl
    | some parent => simp only [ih]

theorem resolve?_define_of_ne {other : String} (different : other ≠ name) (start : FrameId) :
    (store.define scope name value).resolve? start other = store.resolve? start other := by
  unfold resolve? chain
  rw [chainUpTo_define]
  simp only [local?_define_of_ne different]

theorem chainUpTo_addObject (object : Object) (count : Nat) (start : FrameId) :
    (store.addObject object).chainUpTo count start = store.chainUpTo count start := by
  induction count generalizing start with
  | zero => rfl
  | succ count ih =>
    unfold chainUpTo
    rw [show (store.addObject object).parent? start = store.parent? start from rfl]
    cases store.parent? start with
    | none => rfl
    | some parent => simp only [ih]

/-- An object is no variable. -/
theorem resolve?_addObject (object : Object) (start : FrameId) (other : String) :
    (store.addObject object).resolve? start other = store.resolve? start other := by
  unfold resolve? chain
  rw [chainUpTo_addObject]
  rfl

/-- A scope comes first in its own chain. -/
theorem resolve?_define_self (inside : scope < store.frames.size) :
    (store.define scope name value).resolve? scope name = some value := by
  unfold resolve? chain chainUpTo
  rw [List.findSome?_cons, local?_define_self inside]

theorem binds_eq_isSome_resolve? (store : Store) (scope : FrameId) (name : String) :
    store.binds scope name = (store.resolve? scope name).isSome := by
  rw [Bool.eq_iff_iff]
  unfold binds owner? resolve?
  rw [List.find?_isSome, List.findSome?_isSome_iff]

theorem lookup_eq_ok_iff :
    store.lookup scope name = .ok value ↔ store.resolve? scope name = some value := by
  unfold lookup
  cases store.resolve? scope name <;> simp

end Store
end Scriptlet
