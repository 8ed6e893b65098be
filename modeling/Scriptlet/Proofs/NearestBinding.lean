import Scriptlet.Proofs.Reachability
import Scriptlet.Proofs.Scopes
import Scriptlet.Proofs.Termination

/-!
# The nearest binding

Frames form a forest, in which every frame is younger than the one around it. A name means the
variable of the first frame from a scope outwards that has one. Assigning to a name changes this
variable alone, or gives the scope one if there is none; so it shows in exactly those frames from
which the changed variable is the nearest.
-/

namespace Scriptlet
namespace Store

/-! ## Forests of frames -/

/-- A store whose frames were made one by one, each without a parent or inside one that was there,
and were given variables. What else the store has does not matter. -/
inductive Grown : Store → Prop where
  | empty : Grown .empty
  | addGlobal {store : Store} (grown : Grown store) : Grown (store.addFrame none)
  | addChild {store : Store} {scope : FrameId} (grown : Grown store)
      (inside : scope < store.frames.size) : Grown (store.addFrame (some scope))
  | define {store : Store} (grown : Grown store) (scope : FrameId) (name : String)
      (value : Value) : Grown (store.define scope name value)
  | assign {store : Store} (grown : Grown store) (scope : FrameId) (name : String)
      (value : Value) : Grown (store.assign scope name value)
  | other {store after : Store} (grown : Grown store) (same : after.frames = store.frames) :
      Grown after

/-- Whether every frame is younger than the one around it. -/
def Forest (store : Store) : Prop :=
  ∀ ⦃inner outer : FrameId⦄, store.Inside inner outer → outer < inner

/-- Whether a frame is the first one from a scope outwards that has a variable of a name. -/
inductive Nearest (store : Store) (name : String) : FrameId → FrameId → Prop where
  | here {scope : FrameId} {value : Value} (bound : store.local? scope name = some value) :
      store.Nearest name scope scope
  | outer {scope parent owner : FrameId} (free : store.local? scope name = none)
      (inside : store.Inside scope parent) (nearest : store.Nearest name parent owner) :
      store.Nearest name scope owner

/-- What an assignment does that changes the variable of one frame, or gives it one. -/
structure Assigns (before after : Store) (scope target : FrameId) (name : String) (value : Value) :
    Prop where
  /-- Nothing but the one variable changes. -/
  bindings : ∀ frame other, after.local? frame other =
    if frame = target ∧ other = name then some value else before.local? frame other
  parents : ∀ inner outer, after.Inside inner outer ↔ before.Inside inner outer
  objects : after.objects = before.objects
  read : after.resolve? scope name = some value
  /-- Every frame from which the variable is the nearest, before or now, reads the value. -/
  sharers : ∀ frame, before.Nearest name frame target ∨ after.Nearest name frame target →
    after.resolve? frame name = some value
  others : ∀ frame other, ¬ (other = name ∧ after.Nearest name frame target) →
    after.resolve? frame other = before.resolve? frame other

variable {store : Store} {scope owner target frame : FrameId} {name : String} {value : Value}

theorem inside_define {inner outer : FrameId} :
    (store.define scope name value).Inside inner outer ↔ store.Inside inner outer := by
  unfold Inside define
  rw [Array.getElem?_modify]
  by_cases same : scope = inner
  · cases store.frames[inner]? <;> simp [same]
  · simp [same]

theorem Forest.define (forest : store.Forest) (scope : FrameId) (name : String) (value : Value) :
    (store.define scope name value).Forest :=
  fun _ _ inside => forest (inside_define.mp inside)

theorem Grown.forest (grown : store.Grown) : store.Forest := by
  induction grown with
  | empty =>
    rintro inner outer ⟨frame, found, -⟩
    simp [Store.empty] at found
  | addGlobal _ ih =>
    rintro inner outer ⟨frame, found, isParent⟩
    rw [addFrame, Array.getElem?_push] at found
    split at found
    · cases found
      cases isParent
    · exact ih ⟨frame, found, isParent⟩
  | addChild _ inside ih =>
    rintro inner outer ⟨frame, found, isParent⟩
    rw [addFrame, Array.getElem?_push] at found
    split at found
    · next isNew =>
      -- the parent of the new frame was there before it
      cases found
      cases isParent
      rw [isNew]
      exact inside
    · exact ih ⟨frame, found, isParent⟩
  | define _ scope name value ih => exact ih.define scope name value
  | assign _ scope name value ih => exact ih.define _ name value
  | other _ same ih =>
    rintro inner outer ⟨frame, found, isParent⟩
    exact ih ⟨frame, same ▸ found, isParent⟩

/-! ## The nearest binding -/

theorem chain_eq (store : Store) (scope : FrameId) :
    store.chain scope =
      scope :: match store.parent? scope with
        | some parent => store.chain parent
        | none => [] :=
  (congrFun ((store.chain_settles.unique _).mpr rfl) scope).symm

/-- In a forest no parent is passed over. -/
theorem parent?_eq_some_iff (forest : store.Forest) {parent : FrameId} :
    store.parent? scope = some parent ↔ store.Inside scope parent := by
  unfold parent?
  rw [Option.filter_eq_some_iff, Option.bind_eq_some_iff]
  constructor
  · rintro ⟨⟨frame, found, isParent⟩, -⟩
    exact ⟨frame, found, isParent⟩
  · intro inside
    exact ⟨inside, decide_eq_true (forest inside)⟩

theorem nearest_iff_of_bound (bound : store.local? scope name = some value) :
    store.Nearest name scope owner ↔ scope = owner := by
  constructor
  · intro nearest
    cases nearest with
    | here _ => rfl
    | outer free _ _ => rw [bound] at free; cases free
  · rintro rfl
    exact .here bound

theorem nearest_iff_of_free (free : store.local? scope name = none) :
    store.Nearest name scope owner ↔
      ∃ parent, store.Inside scope parent ∧ store.Nearest name parent owner := by
  constructor
  · intro nearest
    cases nearest with
    | here bound => rw [free] at bound; cases bound
    | outer _ inside nearest => exact ⟨_, inside, nearest⟩
  · rintro ⟨parent, inside, nearest⟩
    exact .outer free inside nearest

/-- The owner of a name is found by going outwards. The induction is on the scope, since every
parent has an earlier place. -/
theorem owner?_eq_some_iff (forest : store.Forest) :
    store.owner? scope name = some owner ↔ store.Nearest name scope owner := by
  induction scope using Nat.strong_induction_on with
  | _ scope ih =>
    unfold owner?
    rw [chain_eq, List.find?_cons]
    cases bound : store.local? scope name with
    | some value =>
      rw [nearest_iff_of_bound bound]
      exact Option.some_inj
    | none =>
      dsimp only [Option.isSome_none]
      simp only [nearest_iff_of_free bound, ← parent?_eq_some_iff forest]
      cases outer : store.parent? scope with
      | none => simp
      | some parent =>
        have next := ih parent (forest ((parent?_eq_some_iff forest).mp outer))
        unfold owner? at next
        simpa using next

theorem resolve?_eq_bind_owner? (store : Store) (scope : FrameId) (name : String) :
    store.resolve? scope name = (store.owner? scope name).bind (store.local? · name) := by
  unfold resolve? owner?
  induction store.chain scope with
  | nil => rfl
  | cons first rest ih =>
    rw [List.findSome?_cons, List.find?_cons]
    cases bound : store.local? first name with
    | some value => simp [bound]
    | none => simpa using ih

theorem resolve?_eq_some_iff (forest : store.Forest) :
    store.resolve? scope name = some value ↔
      ∃ owner, store.Nearest name scope owner ∧ store.local? owner name = some value := by
  rw [resolve?_eq_bind_owner?, Option.bind_eq_some_iff]
  simp only [owner?_eq_some_iff forest]

theorem binds_iff (forest : store.Forest) :
    store.binds scope name = true ↔ ∃ owner, store.Nearest name scope owner := by
  unfold binds
  rw [Option.isSome_iff_exists]
  simp only [owner?_eq_some_iff forest]

theorem lookup_eq_error_iff {error : Error} :
    store.lookup scope name = .error error ↔
      error = .unbound name ∧ store.binds scope name = false := by
  rw [binds_eq_isSome_resolve?]
  unfold lookup
  cases store.resolve? scope name with
  | some value => simp
  | none => simp [eq_comm]

/-! ## Assigning -/

theorem local?_define (inside : target < store.frames.size) (frame : FrameId) (other : String) :
    (store.define target name value).local? frame other =
      if frame = target ∧ other = name then some value else store.local? frame other := by
  unfold local?
  rw [bindings_define]
  by_cases same : frame = target
  · rw [if_pos ⟨same, inside⟩, Dict.get?_put]
    simp [same]
  · simp [same]

theorem local?_define_elsewhere (different : frame ≠ target) (other : String) :
    (store.define target name value).local? frame other = store.local? frame other := by
  unfold local?
  rw [bindings_define, if_neg fun both => different both.1]

theorem lt_size_of_local? (bound : store.local? frame name = some value) :
    frame < store.frames.size := by
  by_contra outside
  unfold local? bindings at bound
  rw [Array.getElem?_eq_none (Nat.le_of_not_lt outside)] at bound
  cases bound

theorem Nearest.bound (nearest : store.Nearest name scope owner) :
    ∃ value, store.local? owner name = some value := by
  induction nearest with
  | here bound => exact ⟨_, bound⟩
  | outer _ _ _ ih => exact ih

section

variable (inside : target < store.frames.size)

include inside

/-- Another frame that is the nearest now was the nearest before. -/
theorem Nearest.of_define (different : owner ≠ target)
    (nearest : (store.define target name value).Nearest name frame owner) :
    store.Nearest name frame owner := by
  induction nearest with
  | here bound => exact .here ((local?_define_elsewhere different name).symm.trans bound)
  | outer free isInside _ ih =>
    rw [local?_define inside] at free
    split at free
    · cases free
    · exact .outer free (inside_define.mp isInside) (ih different)

/-- The frame that was the nearest still is, unless the changed frame comes before it. -/
theorem Nearest.define (nearest : store.Nearest name frame owner) (value : Value) :
    (store.define target name value).Nearest name frame owner ∨
      (store.define target name value).Nearest name frame target := by
  have reached : (store.define target name value).Nearest name target target :=
    .here (local?_define_self inside)
  induction nearest with
  | @here scope _ bound =>
    by_cases same : scope = target
    · rw [same]
      exact .inr reached
    · exact .inl (.here ((local?_define_elsewhere same name).trans bound))
  | @outer scope _ _ free isInside _ ih =>
    -- the scope had no such variable, and has one now only if it is the changed frame
    by_cases same : scope = target
    · rw [same]
      exact .inr reached
    · have stillFree : (store.define target name value).local? scope name = none :=
        (local?_define_elsewhere same name).trans free
      exact ih.imp (.outer stillFree (inside_define.mpr isInside))
        (.outer stillFree (inside_define.mpr isInside))

/-- Where the changed variable is not the nearest, the name means what it meant. -/
theorem resolve?_define_of_not_nearest (forest : store.Forest)
    (apart : ¬ (store.define target name value).Nearest name frame target) :
    (store.define target name value).resolve? frame name = store.resolve? frame name := by
  apply Option.ext
  intro found
  rw [resolve?_eq_some_iff (forest.define target name value), resolve?_eq_some_iff forest]
  constructor
  · rintro ⟨owner, nearest, isValue⟩
    have different : owner ≠ target := fun equal => apart (equal ▸ nearest)
    exact ⟨owner, nearest.of_define inside different,
      (local?_define_elsewhere different name).symm.trans isValue⟩
  · rintro ⟨owner, nearest, isValue⟩
    have still := (nearest.define inside value).resolve_right apart
    have different : owner ≠ target := fun equal => apart (equal ▸ still)
    exact ⟨owner, still, (local?_define_elsewhere different name).trans isValue⟩

theorem assigns_define (forest : store.Forest)
    (nearest : (store.define target name value).Nearest name scope target) :
    store.Assigns (store.define target name value) scope target name value := by
  have reads {frame : FrameId}
      (nearest : (store.define target name value).Nearest name frame target) :
      (store.define target name value).resolve? frame name = some value :=
    (resolve?_eq_some_iff (forest.define target name value)).mpr
      ⟨target, nearest, local?_define_self inside⟩
  refine ⟨local?_define inside, fun _ _ => inside_define, rfl, reads nearest, ?_, ?_⟩
  · rintro frame (before | now)
    · exact reads ((before.define inside value).elim id id)
    · exact reads now
  · intro frame other apart
    by_cases same : other = name
    · subst same
      exact resolve?_define_of_not_nearest inside forest fun nearest => apart ⟨rfl, nearest⟩
    · exact resolve?_define_of_ne same frame

end

/-- The variable that is assigned to: the nearest one, or a new one of the scope itself. -/
theorem assign_assigns (forest : store.Forest)
    (inside : scope < store.frames.size) (name : String) (value : Value) :
    ∃ target, (store.Nearest name scope target ∨
        target = scope ∧ ∀ owner, ¬ store.Nearest name scope owner) ∧
      store.Assigns (store.assign scope name value) scope target name value := by
  unfold assign
  cases found : store.owner? scope name with
  | some owner =>
    have nearest := (owner?_eq_some_iff forest).mp found
    obtain ⟨old, bound⟩ := nearest.bound
    have isFrame := lt_size_of_local? bound
    exact ⟨owner, .inl nearest,
      assigns_define isFrame forest ((nearest.define isFrame value).elim id id)⟩
  | none =>
    refine ⟨scope, .inr ⟨rfl, fun owner nearest => ?_⟩, ?_⟩
    · rw [(owner?_eq_some_iff forest).mpr nearest] at found
      cases found
    · exact assigns_define inside forest (.here (local?_define_self inside))

end Store

/-- A name means the nearest variable, and looking it up fails with a reference error exactly if
there is none. Assigning changes the nearest variable, or adds one to the scope itself; every frame
from which that variable is the nearest reads the value, and all other names mean what they
meant. -/
theorem names_mean_nearest {store : Store} (grown : store.Grown) {scope : FrameId}
    (inside : scope < store.frames.size) (name : String) :
    (∀ value, store.resolve? scope name = some value ↔
        ∃ owner, store.Nearest name scope owner ∧ store.local? owner name = some value) ∧
      (store.binds scope name = true ↔ ∃ owner, store.Nearest name scope owner) ∧
      (∀ value, store.lookup scope name = .ok value ↔ store.resolve? scope name = some value) ∧
      (∀ error, store.lookup scope name = .error error ↔
        error = .unbound name ∧ store.binds scope name = false) ∧
      ∀ value, ∃ target, (store.Nearest name scope target ∨
          target = scope ∧ ∀ owner, ¬ store.Nearest name scope owner) ∧
        store.Assigns (store.assign scope name value) scope target name value := by
  have forest := grown.forest
  refine ⟨fun value => ?_, ?_, fun value => ?_, fun error => ?_, fun value => ?_⟩
  · exact Store.resolve?_eq_some_iff forest
  · exact Store.binds_iff forest
  · exact Store.lookup_eq_ok_iff
  · exact Store.lookup_eq_error_iff
  · exact Store.assign_assigns forest inside name value

/-- A frame with a variable, and two frames inside it, the second with a variable of the same
name. -/
def siblings : Store :=
  ((((Store.empty.addFrame none).define 0 "a" .null).addFrame (some 0)).addFrame (some 0)).define 2
    "a" .undefined

/-- Assigning from the first of the inner frames shows in the outer frame, and not in the frame
that has its own variable. -/
theorem siblings_assigned :
    siblings.Grown ∧ 1 < siblings.frames.size ∧
      (∃ target, (siblings.Nearest "a" 1 target ∨
          target = 1 ∧ ∀ owner, ¬ siblings.Nearest "a" 1 owner) ∧
        siblings.Assigns (siblings.assign 1 "a" (.boolean true)) 1 target "a" (.boolean true)) ∧
      (siblings.assign 1 "a" (.boolean true)).resolve? 0 "a" = some (.boolean true) ∧
      (siblings.assign 1 "a" (.boolean true)).resolve? 2 "a" = some .undefined := by
  have grown : siblings.Grown := by
    refine .define (.addChild (.addChild (.define (.addGlobal .empty) 0 "a" .null) ?_) ?_) 2 "a" _
    · decide
    · decide
  have inside : 1 < siblings.frames.size := by decide
  obtain ⟨-, -, -, -, assigns⟩ := names_mean_nearest grown inside "a"
  exact ⟨grown, inside, assigns (.boolean true), rfl, rfl⟩

end Scriptlet
