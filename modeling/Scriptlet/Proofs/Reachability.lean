import Mathlib.Logic.Relation
import Scriptlet.Proofs.Discipline.Tracking

/-!
# What evaluation can reach

Frames lead to their parents and to what their variables refer to, objects to what their
properties refer to, functions to the frame they were made in. Evaluation changes no place
that was there before and cannot be reached from where it starts, and what it returns leads
only to places that could be reached or are new.
-/

namespace Scriptlet

open Eval Relation

/-! ## Places -/

/-- A place of a store. -/
inductive Place where
  | frame (id : FrameId)
  | object (id : ObjectId)

/-- What is stored in a place. -/
inductive Contents where
  | frame (frame : Frame)
  | object (object : Object)

/-- The place that a function refers to. -/
def Function.place? : Function → Option Place
  | .native _ _ => none
  | .script _ scope => some (.frame scope)

/-- The place that a value refers to. -/
def Value.place? : Value → Option Place
  | .object id | .array id => some (.object id)
  | .function _ target => target.place?
  | _ => none

namespace Store

/-- What a store has in a place. -/
def contents? (store : Store) : Place → Option Contents
  | .frame id => (store.frames[id]?).map .frame
  | .object id => (store.objects[id]?).map .object

/-- Whether a place is there. -/
def Has (store : Store) : Place → Prop
  | .frame id => id < store.frames.size
  | .object id => id < store.objects.size

/-- Whether a value is in a place. -/
inductive Holds (store : Store) : Place → Value → Prop where
  | binding {id : FrameId} {frame : Frame} {name : String} {value : Value}
      (found : store.frames[id]? = some frame) (bound : (name, value) ∈ frame.bindings) :
      store.Holds (.frame id) value
  | index {id : ObjectId} {object : Object} {index : Nat} {value : Value}
      (found : store.objects[id]? = some object) (property : (index, value) ∈ object.indexed) :
      store.Holds (.object id) value
  | name {id : ObjectId} {object : Object} {name : String} {value : Value}
      (found : store.objects[id]? = some object) (property : (name, value) ∈ object.named) :
      store.Holds (.object id) value

/-- Whether a frame is inside another one. -/
def Inside (store : Store) (inner outer : FrameId) : Prop :=
  ∃ frame, store.frames[inner]? = some frame ∧ frame.parent = some outer

/-- Whether a place leads to another one. -/
inductive Leads (store : Store) : Place → Place → Prop where
  | parent {inner outer : FrameId} (inside : store.Inside inner outer) :
      store.Leads (.frame inner) (.frame outer)
  | value {source target : Place} {value : Value} (holds : store.Holds source value)
      (refers : value.place? = some target) : store.Leads source target

/-- Whether a place can be reached from another one. -/
def Reaches (store : Store) : Place → Place → Prop :=
  ReflTransGen store.Leads

/-- Whether a place can be reached from one of the roots. -/
def Within (store : Store) (roots : Place → Prop) (place : Place) : Prop :=
  ∃ root, roots root ∧ store.Reaches root place

end Store

/-! ## Footings as sets of places -/

namespace Footing

/-- Whether a place is known. -/
def Has (footing : Footing) : Place → Prop
  | .frame id => footing.frame id
  | .object id => footing.place id

/-- The footing that knows some places, the objects among them also as arrays. -/
def ofPlaces (known : Place → Prop) : Footing :=
  ⟨fun id => known (.frame id), fun id => known (.object id), fun id => known (.object id)⟩

theorem has_ofPlaces {known : Place → Prop} {place : Place} :
    (ofPlaces known).Has place ↔ known place := by
  cases place with
  | frame id => exact Iff.rfl
  | object id => exact or_self_iff

end Footing

section

variable {node : Node → Prop} {footing : Footing}

theorem Function.Known.has {function : Function} (known : function.Known node footing)
    {place : Place} (refers : function.place? = some place) : footing.Has place := by
  cases function with
  | native _ _ => cases refers
  | script definition scope =>
    cases refers
    exact known.2

theorem Value.Known.has {value : Value} (known : value.Known node footing) {place : Place}
    (refers : value.place? = some place) : footing.Has place := by
  cases value with
  | object id =>
    cases refers
    exact .inl known
  | array id =>
    cases refers
    exact .inr known
  | function _ target => exact Function.Known.has known refers
  | _ => cases refers

theorem Function.known_ofPlaces {known : Place → Prop} {function : Function}
    (refers : ∀ place, function.place? = some place → known place) :
    function.Known (fun _ => True) (.ofPlaces known) := by
  cases function with
  | native _ _ => trivial
  | script definition scope =>
    exact ⟨definition.every_of_forall fun _ => trivial, refers _ rfl⟩

theorem Value.known_ofPlaces {known : Place → Prop} {value : Value}
    (refers : ∀ place, value.place? = some place → known place) :
    value.Known (fun _ => True) (.ofPlaces known) := by
  cases value with
  | object id | array id => exact refers _ rfl
  | function _ target => exact Function.known_ofPlaces refers
  | _ => trivial

/-- A known place holds only known values. -/
theorem Store.Known.holds {store : Store} (known : store.Known node footing) {place : Place}
    {value : Value} (has : footing.Has place) (holds : store.Holds place value) :
    value.Known node footing := by
  cases holds with
  | binding found bound => exact (known.frames _ _ has found).bindings _ bound
  | index found property => exact (known.objects _ _ has found).indexed _ property
  | name found property => exact (known.objects _ _ has found).named _ property

/-- A known place leads only to known places. -/
theorem Store.Known.leads {store : Store} (known : store.Known node footing) {source target : Place}
    (has : footing.Has source) (leads : store.Leads source target) : footing.Has target := by
  cases leads with
  | parent inside =>
    obtain ⟨frame, found, isParent⟩ := inside
    exact (known.frames _ _ has found).parent _ isParent
  | value holds refers => exact (known.holds has holds).has refers

theorem Store.Known.reaches {store : Store} (known : store.Known node footing)
    {source target : Place} (has : footing.Has source) (reaches : store.Reaches source target) :
    footing.Has target := by
  induction reaches with
  | refl => exact has
  | tail _ leads ih => exact known.leads ih leads

/-- The places within reach of some roots lead only to such places. -/
theorem Store.known_within (store : Store) (roots : Place → Prop) :
    store.Known (fun _ => True) (.ofPlaces (store.Within roots)) := by
  have closed {source target : Place} (within : store.Within roots source)
      (leads : store.Leads source target) : store.Within roots target := by
    obtain ⟨root, isRoot, reaches⟩ := within
    exact ⟨root, isRoot, reaches.tail leads⟩
  constructor
  · intro id frame within found
    constructor
    · intro entry bound
      exact Value.known_ofPlaces fun _ refers => closed within (.value (.binding found bound) refers)
    · intro outer isParent
      exact closed within (.parent ⟨frame, found, isParent⟩)
  · intro id object within found
    have within : store.Within roots (.object id) := or_self_iff.mp within
    constructor
    · intro entry property
      exact Value.known_ofPlaces fun _ refers => closed within (.value (.index found property) refers)
    · intro entry property
      exact Value.known_ofPlaces fun _ refers => closed within (.value (.name found property) refers)

end

/-! ## Single changes -/

namespace Store

variable {store : Store} {place : Place}

theorem has_define {scope : FrameId} {name : String} {value : Value} :
    (store.define scope name value).Has place ↔ store.Has place := by
  cases place <;> simp [Has, define]

theorem contents?_define {scope : FrameId} (elsewhere : place ≠ .frame scope) (name : String)
    (value : Value) : (store.define scope name value).contents? place = store.contents? place := by
  cases place with
  | frame id =>
    have other : scope ≠ id := fun same => elsewhere (congrArg _ same.symm)
    simp [contents?, define, Array.getElem?_modify, other]
  | object id => rfl

theorem has_modifyObject {id : ObjectId} {change : Object → Object} :
    (store.modifyObject id change).Has place ↔ store.Has place := by
  cases place <;> simp [Has, modifyObject]

theorem contents?_modifyObject {id : ObjectId} (elsewhere : place ≠ .object id)
    (change : Object → Object) :
    (store.modifyObject id change).contents? place = store.contents? place := by
  cases place with
  | frame _ => rfl
  | object id' =>
    have other : id ≠ id' := fun same => elsewhere (congrArg _ same.symm)
    simp [contents?, modifyObject, Array.getElem?_modify, other]

theorem has_addFrame {parent : Option FrameId} :
    (store.addFrame parent).Has place ↔ store.Has place ∨ place = .frame store.nextFrame := by
  cases place with
  | frame id =>
    simp only [Has, addFrame, Array.size_push, Place.frame.injEq]
    exact Nat.lt_succ_iff_lt_or_eq
  | object id => simp [Has, addFrame]

theorem contents?_addFrame (old : store.Has place) (parent : Option FrameId) :
    (store.addFrame parent).contents? place = store.contents? place := by
  cases place with
  | frame id =>
    have other : id ≠ store.frames.size := Nat.ne_of_lt old
    simp [contents?, addFrame, Array.getElem?_push, other]
  | object id => rfl

theorem has_addObject {object : Object} :
    (store.addObject object).Has place ↔ store.Has place ∨ place = .object store.nextObject := by
  cases place with
  | frame id => simp [Has, addObject]
  | object id =>
    simp only [Has, addObject, Array.size_push, Place.object.injEq]
    exact Nat.lt_succ_iff_lt_or_eq

theorem contents?_addObject (old : store.Has place) (object : Object) :
    (store.addObject object).contents? place = store.contents? place := by
  cases place with
  | frame _ => rfl
  | object id =>
    have other : id ≠ store.objects.size := Nat.ne_of_lt old
    simp [contents?, addObject, Array.getElem?_push, other]

end Store

/-! ## Sparing what is out of reach -/

/-- Whether a store still has what the initial one had out of reach. Known places are within
reach or new. -/
structure Store.Spares (initial : Store) (reach : Place → Prop) (footing : Footing)
    (store : Store) : Prop where
  known : store.Known (fun _ => True) footing
  still : ∀ place, initial.Has place → store.Has place
  covers : ∀ place, footing.Has place → reach place ∨ ¬ initial.Has place ∧ store.Has place
  spared : ∀ place, initial.Has place → ¬ reach place →
    store.contents? place = initial.contents? place

namespace Store.Spares

variable {initial store changed : Store} {reach : Place → Prop} {footing after : Footing}

/-- A change of one known place. -/
theorem write (spares : initial.Spares reach footing store) (target : Place)
    (known : changed.Known (fun _ => True) footing) (isKnown : footing.Has target)
    (has : ∀ {place}, changed.Has place ↔ store.Has place)
    (elsewhere : ∀ {place}, place ≠ target → changed.contents? place = store.contents? place) :
    initial.Spares reach footing changed where
  known := known
  still place old := has.mpr (spares.still place old)
  covers place isPlace := by
    rw [has]
    exact spares.covers place isPlace
  spared place old out := by
    have apart : place ≠ target := by
      rintro rfl
      rcases spares.covers place isKnown with inside | ⟨new, -⟩
      · exact out inside
      · exact new old
    rw [elsewhere apart, spares.spared place old out]

/-- A new place. -/
theorem create (spares : initial.Spares reach footing store) (target : Place)
    (known : changed.Known (fun _ => True) after) (fresh : ¬ store.Has target)
    (knows : ∀ place, after.Has place → footing.Has place ∨ place = target)
    (has : ∀ {place}, changed.Has place ↔ store.Has place ∨ place = target)
    (elsewhere : ∀ {place}, store.Has place → changed.contents? place = store.contents? place) :
    initial.Spares reach after changed where
  known := known
  still place old := has.mpr (.inl (spares.still place old))
  covers place isPlace := by
    rcases knows place isPlace with isPlace | rfl
    · rcases spares.covers place isPlace with inside | ⟨new, there⟩
      · exact .inl inside
      · exact .inr ⟨new, has.mpr (.inl there)⟩
    · exact .inr ⟨fun old => fresh (spares.still place old), has.mpr (.inr rfl)⟩
  spared place old out := by
    rw [elsewhere (spares.still place old), spares.spared place old out]

theorem invariant (initial : Store) (reach : Place → Prop) :
    Store.Invariant (fun _ => True) (initial.Spares reach) where
  known spares := spares.known
  define {_ _ scope _} spares place new name :=
    spares.write (.frame scope) (spares.known.define scope name new) place has_define
      fun elsewhere => contents?_define elsewhere name _
  addFrame {_ store parent} spares place := by
    have known := (Store.Known.invariant _).addFrame spares.known place
    refine spares.create (.frame store.nextFrame) known (Nat.lt_irrefl _) ?_ has_addFrame
      fun old => contents?_addFrame old _
    rintro (id | id) isPlace
    · exact isPlace.imp_right (congrArg Place.frame)
    · exact .inl isPlace
  addObject {_ store object} spares new _ := by
    refine spares.create (.object store.nextObject) (spares.known.addObject new) (Nat.lt_irrefl _) ?_
      has_addObject fun old => contents?_addObject old object
    rintro (id | id) isPlace
    · exact .inl isPlace
    · rcases isPlace with (isObject | rfl) | isArray
      · exact .inl (.inl isObject)
      · exact .inr rfl
      · exact .inl (.inr isArray)
  addArray {_ store object} spares new _ := by
    refine spares.create (.object store.nextObject) (spares.known.addArray new) (Nat.lt_irrefl _) ?_
      has_addObject fun old => contents?_addObject old object
    rintro (id | id) isPlace
    · exact .inl isPlace
    · rcases isPlace with isObject | isArray | rfl
      · exact .inl (.inl isObject)
      · exact .inl (.inr isArray)
      · exact .inr rfl
  addFunction spares := ⟨spares.known.addFunction, spares.still, spares.covers, spares.spared⟩
  setProperty {_ _ id _} spares place new key :=
    spares.write (.object id) ((Store.Known.invariant _).setProperty spares.known place new key)
      place has_modifyObject fun elsewhere => contents?_modifyObject elsewhere _
  removeProperty {_ _ id} spares place key :=
    spares.write (.object id) ((Store.Known.invariant _).removeProperty spares.known place key)
      place has_modifyObject fun elsewhere => contents?_modifyObject elsewhere _

/-- At the beginning, what is within reach is known. -/
theorem initially (store : Store) (roots : Place → Prop) :
    store.Spares (store.Within roots) (.ofPlaces (store.Within roots)) store where
  known := store.known_within roots
  still _ there := there
  covers _ isPlace := .inl (Footing.has_ofPlaces.mp isPlace)
  spared _ _ _ := rfl

end Store.Spares

/-- The regime that spares what is out of reach, whatever is evaluated. -/
def Regime.sparing (initial : Store) (reach : Place → Prop) : Regime :=
  { Regime.any with
    store := initial.Spares reach
    invariant := Store.Spares.invariant initial reach }

/-! ## Confinement -/

/-- Whether a computation changes only what is within reach of the roots, and returns only
what is within reach or new. `value` is the value of its result. -/
structure Eval.Confined {α : Type} (x : Eval α) (value : α → Value) (machine : Machine)
    (roots : Place → Prop) : Prop where
  spared : ∀ place, machine.store.Has place → ¬ machine.store.Within roots place →
    (machineAfter (x machine)).store.contents? place = machine.store.contents? place
  returned : ∀ result after, x machine = .ok result after →
    ∀ root place, (value result).place? = some root → after.store.Reaches root place →
      machine.store.Within roots place ∨ ¬ machine.store.Has place ∧ after.store.Has place

/-- A computation that keeps to the regime of its roots is confined to them. -/
theorem Eval.Confined.of_ends {α : Type} {x : Eval α} {value : α → Value} {machine : Machine}
    {roots : Place → Prop}
    (ends : (Regime.sparing machine.store (machine.store.Within roots)).Ends machine.openCalls
      (.ofPlaces (machine.store.Within roots))
      (fun footing result => (value result).Known (fun _ => True) footing) (x machine)) :
    x.Confined value machine roots := by
  constructor
  · cases result : x machine with
    | ok _ after =>
      rw [result] at ends
      obtain ⟨footing, -, stands, -⟩ := ends
      exact stands.holds.spared
    | error _ after =>
      rw [result] at ends
      obtain ⟨-, footing, -, stands⟩ := ends
      exact stands.holds.spared
  · intro result after isResult root place refers reaches
    rw [isResult] at ends
    obtain ⟨footing, -, stands, known⟩ := ends
    exact stands.holds.covers place (stands.holds.known.reaches (known.has refers) reaches)

/-- The places that a call is given: that of the function, of its receiver and of its arguments. -/
def callRoots (function : Function) (receiver : Option Value) (arguments : List Value)
    (place : Place) : Prop :=
  function.place? = some place ∨ (∃ value ∈ receiver, value.place? = some place) ∨
    ∃ value ∈ arguments, value.place? = some place

/-- Evaluation in a scope changes only what can be reached from it, whether it succeeds or
fails. What a call changes can be reached from the function, its receiver or its arguments;
the frames of its callers are among the places that are left alone, unless one of these leads
to them. -/
theorem writes_are_confined (limit : Nat) (machine : Machine) :
    (∀ scope expr,
      (evalExpr (callWithin limit) scope expr).Confined id machine (· = .frame scope)) ∧
    (∀ scope body, (runStmts (callWithin limit) scope body).Confined Completion.value machine
      (· = .frame scope)) ∧
    (∀ scope program, (runProgram limit scope program).Confined id machine (· = .frame scope)) ∧
    ∀ function receiver arguments, (callWithin limit function receiver arguments).Confined id machine
      (callRoots function receiver arguments) := by
  have stands (roots : Place → Prop) :
      (Regime.sparing machine.store (machine.store.Within roots)).Stands machine.openCalls
        (.ofPlaces (machine.store.Within roots)) machine :=
    ⟨rfl, .initially machine.store roots⟩
  have root {roots : Place → Prop} {place : Place} (isRoot : roots place) :
      machine.store.Within roots place := ⟨place, isRoot, .refl⟩
  refine ⟨fun scope expr => ?_, fun scope body => ?_, fun scope program => ?_,
    fun function receiver arguments => ?_⟩
  · have every : expr.Every fun _ => True := expr.every_of_forall fun _ => trivial
    exact .of_ends (Regime.evalExpr_ends _ limit (stands _) (root rfl) every)
  · have every : everyStmt (fun _ => True) body := everyStmt_of_forall (fun _ => trivial) body
    exact .of_ends (Regime.runStmts_ends _ limit (stands _) (root rfl) every)
  · have every : everyStmt (fun _ => True) program.body := everyStmt_of_forall (fun _ => trivial) _
    exact .of_ends (Regime.runProgram_ends _ limit (stands _) (root rfl) every)
  · have known {value : Value}
        (given : ∀ place, value.place? = some place → callRoots function receiver arguments place) :
        value.Known (fun _ => True)
          (.ofPlaces (machine.store.Within (callRoots function receiver arguments))) :=
      Value.known_ofPlaces fun place refers => root (given place refers)
    refine .of_ends (Regime.callWithin_ends _ limit (stands _) ?_ ?_ ?_)
    · exact Function.known_ofPlaces fun place refers => root (.inl refers)
    · intro value isReceiver
      exact known fun place refers => .inr (.inl ⟨value, isReceiver, refers⟩)
    · intro value isArgument
      exact known fun place refers => .inr (.inr ⟨value, isArgument, refers⟩)

/-- A store with an outermost frame and one inside it, which have a variable of the same name. -/
def nestedStore : Store :=
  (((Store.empty.addFrame none).addFrame (some 0)).define 0 "x" (.string "ours")).define 1 "x"
    (.string "mine")

/-- A function that was made in the outermost frame and sets a variable. -/
def setter : Function :=
  .script ⟨some "set", [],
    [.expression (.assign (.identifier "x") (.string "yours"))], false⟩ 0

/-- The function sets the variable in the outermost frame. It cannot reach the inner frame, so
that frame keeps its own. -/
theorem setter_spares_caller :
    let after := machineAfter (callWithin 1 setter none [.string "x"] ⟨nestedStore, .unlimited, 0⟩)
    after.store.contents? (.frame 0) = some (.frame ⟨[("x", .string "yours")], none⟩) ∧
      after.store.contents? (.frame 1) = nestedStore.contents? (.frame 1) := by
  -- the outermost frame leads nowhere
  let footing : Footing := ⟨(· = 0), fun _ => False, fun _ => False⟩
  have known : nestedStore.Known (fun _ => True) footing := by
    refine ⟨?_, fun _ _ isPlace => absurd isPlace (by simp [footing, Footing.place])⟩
    rintro _ frame rfl ⟨⟩
    exact ⟨List.forall_mem_singleton.mpr trivial, nofun⟩
  refine ⟨rfl, ?_⟩
  apply ((writes_are_confined 1 _).2.2.2 setter none [.string "x"]).spared (.frame 1)
  · show 1 < 2
    decide
  · rintro ⟨root, isRoot | ⟨_, ⟨⟩, _⟩ | ⟨value, isArgument, refers⟩, reaches⟩
    · cases isRoot
      have outermost : footing.Has (.frame 0) := rfl
      cases known.reaches outermost reaches
    · cases List.mem_singleton.mp isArgument
      cases refers

end Scriptlet
