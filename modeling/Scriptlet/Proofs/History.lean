import Scriptlet.Engine
import Scriptlet.Proofs.Reachability
import Scriptlet.Proofs.Watch

/-!
# The history of a store

Evaluation goes through stores by single changes: a variable is given a value, a frame, object
or function is made, a property is set or taken out. No change moves a frame to another parent
or unbinds a name, and from a new engine on the store is orderly after each change: frames are
not inside themselves, objects are canonical, and a place is used either as an object by all
values or as an array by all values. The stores that calls find and leave are stores of this
history, which a watch on all calls of a run sees.
-/

namespace Scriptlet

open Eval Relation

/-! ## Single changes -/

namespace Store

/-- A single change of a store. -/
inductive Step (store : Store) : Store → Prop where
  | define (scope : FrameId) (name : String) (value : Value) :
      store.Step (store.define scope name value)
  | addFrame (parent : FrameId) : store.Step (store.addFrame (some parent))
  | addObject (object : Object) : store.Step (store.addObject object)
  | addFunction : store.Step store.addFunction
  | setProperty (id : ObjectId) (key : String) (value : Value) :
      store.Step (store.modifyObject id (·.set key value))
  | removeProperty (id : ObjectId) (key : String) :
      store.Step (store.modifyObject id (·.remove key))

/-- Whether every frame is still there, inside the same frame as before, and still has all its
variables. -/
def Keeps (before after : Store) : Prop :=
  ∀ (id : FrameId) (frame : Frame), before.frames[id]? = some frame →
    ∃ later : Frame, after.frames[id]? = some later ∧ later.parent = frame.parent ∧
      ∀ name, (frame.bindings.get? name).isSome → (later.bindings.get? name).isSome

theorem Keeps.of_eq {before after : Store} (same : after.frames = before.frames) :
    before.Keeps after := by
  intro id frame found
  exact ⟨frame, same ▸ found, rfl, fun _ bound => bound⟩

theorem Keeps.trans {first second third : Store} (early : first.Keeps second)
    (late : second.Keeps third) : first.Keeps third := by
  intro id frame found
  obtain ⟨next, isNext, sameParent, stillBound⟩ := early id frame found
  obtain ⟨last, isLast, sameParent', stillBound'⟩ := late id next isNext
  exact ⟨last, isLast, sameParent'.trans sameParent,
    fun name bound => stillBound' name (stillBound name bound)⟩

theorem Step.keeps {before after : Store} (step : before.Step after) : before.Keeps after := by
  cases step with
  | define scope name value =>
    intro id frame found
    simp only [Store.define, Array.getElem?_modify, found]
    split
    · refine ⟨_, rfl, rfl, fun other bound => ?_⟩
      rw [Dict.isSome_get?_iff] at bound ⊢
      rw [Dict.names_put]
      split
      · exact bound
      · exact List.mem_append_left _ bound
    · exact ⟨frame, rfl, rfl, fun _ bound => bound⟩
  | addFrame parent =>
    intro id frame found
    have inside := (Array.getElem?_eq_some_iff.mp found).1
    refine ⟨frame, ?_, rfl, fun _ bound => bound⟩
    rw [Store.addFrame, Array.getElem?_push, if_neg (Nat.ne_of_lt inside), found]
  | addObject | addFunction | setProperty | removeProperty => exact .of_eq rfl

end Store

/-! ## Orderly stores -/

/-- Whether a value uses a place as an array or as an object, as is told of each place. -/
def Value.UsedAs (isArray : ObjectId → Prop) : Value → Prop
  | .object id => ¬ isArray id
  | .array id => isArray id
  | _ => True

theorem Value.Known.usedAs {node : Node → Prop} {footing : Footing} {value : Value}
    (known : value.Known node footing) (apart : ∀ id, footing.object id → ¬ footing.array id) :
    value.UsedAs footing.array := by
  cases value with
  | object id => exact apart id known
  | array id => exact known
  | _ => trivial

/-- Whether frames are never inside themselves, objects are canonical, and all values use
places as is told. -/
structure Store.Orderly (isArray : ObjectId → Prop) (store : Store) : Prop where
  acyclic : ∀ id, ¬ TransGen store.Inside id id
  canonical : ∀ (id : ObjectId) (object : Object), store.objects[id]? = some object → object.Canonical
  uses : ∀ place value, store.Holds place value → value.UsedAs isArray

/-- A single change that keeps the frames and leaves an orderly store. -/
structure Store.Advances (isArray : ObjectId → Prop) (before after : Store) : Prop where
  step : before.Step after
  keeps : before.Keeps after
  orderly : after.Orderly isArray

/-- Whether all that a store has is lawful, seen from a footing that may know more: every
value is known, and parents are older than their children. -/
structure Store.Lawful (footing : Footing) (store : Store) : Prop where
  values : ∀ place value, store.Holds place value → value.Known (fun _ => True) footing
  older : ∀ inner outer, store.Inside inner outer → outer < inner
  canonical : ∀ (id : ObjectId) (object : Object), store.objects[id]? = some object → object.Canonical

/-- Whether a footing knows exactly what a store has. -/
structure Store.Settled (footing : Footing) (store : Store) : Prop where
  known : store.Known (fun _ => True) footing
  frames : ∀ id, footing.frame id ↔ id < store.frames.size
  places : ∀ id, footing.place id ↔ id < store.objects.size
  apart : ∀ id, footing.object id → ¬ footing.array id
  older : ∀ inner outer, store.Inside inner outer → outer < inner
  canonical : ∀ (id : ObjectId) (object : Object), store.objects[id]? = some object → object.Canonical

namespace Store

variable {store : Store} {footing after : Footing}

theorem Settled.lawful (settled : store.Settled footing) : store.Lawful footing where
  values place value holds := by
    refine settled.known.holds ?_ holds
    cases holds with
    | binding found _ => exact (settled.frames _).mpr (Array.getElem?_eq_some_iff.mp found).1
    | index found _ | name found _ =>
      exact (settled.places _).mpr (Array.getElem?_eq_some_iff.mp found).1
  older := settled.older
  canonical := settled.canonical

theorem Settled.canonicalStore (settled : store.Settled footing) :
    store.Canonical := by
  intro id
  unfold objectAt
  cases found : store.objects[id]? with
  | none => exact .empty
  | some object => exact settled.canonical id object found

theorem Lawful.grow (grows : footing ≤ after) (lawful : store.Lawful footing) :
    store.Lawful after where
  values place value holds := (lawful.values place value holds).grow grows
  older := lawful.older
  canonical := lawful.canonical

/-- Parents that are older than their children make no cycle. -/
theorem Lawful.orderly (apart : ∀ id, footing.object id → ¬ footing.array id)
    (lawful : store.Lawful footing) : store.Orderly footing.array where
  acyclic id cycle := by
    have below {inner outer : FrameId} (chain : TransGen store.Inside inner outer) :
        outer < inner := by
      induction chain with
      | single inside => exact lawful.older _ _ inside
      | tail _ inside ih => exact Nat.lt_trans (lawful.older _ _ inside) ih
    exact Nat.lt_irrefl id (below cycle)
  canonical := lawful.canonical
  uses place value holds := (lawful.values place value holds).usedAs apart

/-! ## What each change does to a settled store -/

namespace Settled

variable {object : Object}

theorem define (settled : store.Settled footing) (scope : FrameId) (name : String) {value : Value}
    (new : value.Known (fun _ => True) footing) :
    (store.define scope name value).Settled footing where
  known := settled.known.define scope name new
  frames id := by
    rw [settled.frames]
    simp [Store.define]
  places := settled.places
  apart := settled.apart
  older inner outer inside := by
    obtain ⟨frame, found, isParent⟩ := inside
    rw [Store.define, Array.getElem?_modify] at found
    split at found
    · obtain ⟨old, isOld, rfl⟩ := Option.map_eq_some_iff.mp found
      exact settled.older inner outer ⟨old, isOld, isParent⟩
    · exact settled.older inner outer ⟨frame, found, isParent⟩
  canonical := settled.canonical

theorem addFrame (settled : store.Settled footing) {parent : FrameId}
    (place : footing.frame parent) :
    (store.addFrame (some parent)).Settled (footing.withFrame store.nextFrame) where
  known := (Store.Known.invariant _).addFrame settled.known place
  frames id := by
    show footing.frame id ∨ id = store.frames.size ↔ id < (store.frames.push _).size
    rw [settled.frames, Array.size_push]
    exact Nat.lt_succ_iff_lt_or_eq.symm
  places := settled.places
  apart := settled.apart
  older inner outer inside := by
    obtain ⟨frame, found, isParent⟩ := inside
    rw [Store.addFrame, Array.getElem?_push] at found
    split at found
    · next isNew =>
      -- the parent of the new frame was there before it
      cases found
      cases isParent
      rw [isNew]
      exact (settled.frames parent).mp place
    · exact settled.older inner outer ⟨frame, found, isParent⟩
  canonical := settled.canonical

/-- A new object in a place that nothing was known of. -/
theorem push (settled : store.Settled footing) (new : object.Canonical)
    (known : (store.addObject object).Known (fun _ => True) after)
    (frames : after.frame = footing.frame)
    (places : ∀ id, after.place id ↔ footing.place id ∨ id = store.nextObject)
    (apart : ∀ id, after.object id → ¬ after.array id) :
    (store.addObject object).Settled after where
  known := known
  frames id := by
    rw [frames]
    exact settled.frames id
  places id := by
    show after.place id ↔ id < (store.objects.push object).size
    rw [places, settled.places, Array.size_push]
    exact Nat.lt_succ_iff_lt_or_eq.symm
  apart := apart
  older := settled.older
  canonical id other found := by
    rw [Store.addObject, Array.getElem?_push] at found
    split at found
    · cases found
      exact new
    · exact settled.canonical id other found

/-- The next place is not known yet. -/
theorem fresh (settled : store.Settled footing) : ¬ footing.place store.nextObject := by
  rw [settled.places]
  exact Nat.lt_irrefl _

theorem addObject (settled : store.Settled footing) (known : object.Known (fun _ => True) footing)
    (new : object.Canonical) :
    (store.addObject object).Settled (footing.withObject store.nextObject) := by
  refine settled.push new (settled.known.addObject known) rfl (fun id => ?_) (fun id => ?_)
  · show (footing.object id ∨ id = store.nextObject) ∨ footing.array id ↔ _
    rw [or_right_comm]
    rfl
  · rintro (isObject | rfl) isArray
    · exact settled.apart id isObject isArray
    · exact settled.fresh (.inr isArray)

theorem addArray (settled : store.Settled footing) (known : object.Known (fun _ => True) footing)
    (new : object.Canonical) :
    (store.addObject object).Settled (footing.withArray store.nextObject) := by
  refine settled.push new (settled.known.addArray known) rfl (fun id => ?_) (fun id => ?_)
  · show footing.object id ∨ footing.array id ∨ id = store.nextObject ↔ _
    rw [← or_assoc]
    rfl
  · rintro isObject (isArray | rfl)
    · exact settled.apart id isObject isArray
    · exact settled.fresh (.inl isObject)

theorem addFunction (settled : store.Settled footing) : store.addFunction.Settled footing :=
  ⟨settled.known.addFunction, settled.frames, settled.places, settled.apart, settled.older,
    settled.canonical⟩

theorem modifyObject (settled : store.Settled footing) {id : ObjectId} {change : Object → Object}
    (known : (store.modifyObject id change).Known (fun _ => True) footing)
    (keeps : ∀ object : Object, object.Canonical → (change object).Canonical) :
    (store.modifyObject id change).Settled footing where
  known := known
  frames := settled.frames
  places other := by
    rw [settled.places]
    simp [Store.modifyObject]
  apart := settled.apart
  older := settled.older
  canonical other object found := by
    rw [Store.modifyObject, Array.getElem?_modify] at found
    split at found
    · obtain ⟨old, isOld, rfl⟩ := Option.map_eq_some_iff.mp found
      exact keeps old (settled.canonical other old isOld)
    · exact settled.canonical other object found

end Settled

/-! ## Histories -/

/-- A single change to a lawful store. -/
def Proceeds (footing : Footing) (before after : Store) : Prop :=
  before.Step after ∧ after.Lawful footing

theorem Proceeds.grow (grows : footing ≤ after) : Proceeds footing ≤ Proceeds after :=
  fun _ _ proceeds => ⟨proceeds.1, proceeds.2.grow grows⟩

/-- Whether a store is settled and came of each of some stores by single changes. -/
structure Follows (starts : List Store) (footing : Footing) (store : Store) : Prop where
  settled : store.Settled footing
  history : ∀ start ∈ starts, ReflTransGen (Proceeds footing) start store

namespace Follows

variable {starts : List Store} {changed : Store}

theorem refl (settled : store.Settled footing) : Follows [store] footing store :=
  ⟨settled, List.forall_mem_singleton.mpr .refl⟩

/-- One more store that it came of: itself. -/
theorem cons_self (follows : Follows starts footing store) :
    Follows (store :: starts) footing store :=
  ⟨follows.settled, List.forall_mem_cons.mpr ⟨.refl, follows.history⟩⟩

/-- One more change. What was lawful before still is, seen from a footing that knows more. -/
theorem next (follows : Follows starts footing store) (step : store.Step changed)
    (grows : footing ≤ after) (settled : changed.Settled after) : Follows starts after changed := by
  refine ⟨settled, fun start member => ?_⟩
  have earlier : ReflTransGen (Proceeds after) start store :=
    ReflTransGen.mono (Proceeds.grow grows) _ _ (follows.history start member)
  exact earlier.tail ⟨step, settled.lawful⟩

theorem invariant (starts : List Store) : Store.Invariant (fun _ => True) (Follows starts) where
  known follows := follows.settled.known
  define {_ _ scope value} follows _ new name :=
    follows.next (.define scope name value) le_rfl (follows.settled.define scope name new)
  addFrame {footing _ parent} follows place :=
    follows.next (.addFrame parent) (footing.le_withFrame _) (follows.settled.addFrame place)
  addObject {footing _ object} follows known new :=
    follows.next (.addObject object) (footing.le_withObject _)
      (follows.settled.addObject known new)
  addArray {footing _ object} follows known new :=
    follows.next (.addObject object) (footing.le_withArray _) (follows.settled.addArray known new)
  addFunction follows := follows.next .addFunction le_rfl follows.settled.addFunction
  setProperty {_ _ id value} follows place new key :=
    follows.next (.setProperty id key value) le_rfl (follows.settled.modifyObject
      ((Store.Known.invariant _).setProperty follows.settled.known place new key)
      fun _ canonical => canonical.set key value)
  removeProperty {_ _ id} follows place key :=
    follows.next (.removeProperty id key) le_rfl (follows.settled.modifyObject
      ((Store.Known.invariant _).removeProperty follows.settled.known place key)
      fun _ canonical => canonical.remove key)

end Follows

/-- Single changes to lawful stores keep them orderly. -/
theorem Proceeds.advances (apart : ∀ id, footing.object id → ¬ footing.array id) :
    Proceeds footing ≤ Advances footing.array :=
  fun _ _ proceeds => ⟨proceeds.1, proceeds.1.keeps, proceeds.2.orderly apart⟩

theorem keeps_of_history {first last : Store}
    (history : ReflTransGen (Proceeds footing) first last) : first.Keeps last := by
  induction history with
  | refl => exact .of_eq rfl
  | tail _ proceeds ih => exact ih.trans proceeds.1.keeps

end Store

/-! ## The history under watch -/

/-- Whether each of some stores comes of the one before it by single changes that leave it orderly,
and all places are used in one way on that course, also by some values. -/
def Store.Passes (stores : List Store) (values : List Value) : Prop :=
  ∃ isArray : ObjectId → Prop, stores.IsChain (ReflTransGen (Store.Advances isArray)) ∧
    ∀ value ∈ values, value.UsedAs isArray

namespace Eval

open Classical in
/-- Runs a computation under watch: the store that it finds has to come of `start`, and the store
that it leaves has to come of the one that it finds. If they do not, `breach` goes on. -/
noncomputable def passing (start : Store) (breach : Eval Value) (handed : List Value)
    (x : Eval Value) : Eval Value :=
  checked (fun machine => Store.Passes [start, machine.store] handed)
    (fun before value? after =>
      Store.Passes [start, before.store, after.store] (value?.toList ++ handed))
    breach x

/-- The watch on the history of the store. -/
noncomputable def Watch.onHistory (start : Store) (breach : Eval Value) : Watch :=
  ⟨passing start breach, passing start breach⟩

end Eval

namespace Store

variable {footing after : Footing} {start store changed : Store} {others : List Store}
  {handed : List Value}

theorem Follows.advances (follows : Follows others footing store) (grows : footing ≤ after)
    (apart : ∀ id, after.object id → ¬ after.array id) (member : start ∈ others) :
    ReflTransGen (Advances after.array) start store :=
  ReflTransGen.mono ((Proceeds.grow grows).trans (Proceeds.advances apart)) _ _
    (follows.history start member)

/-- What is handed over in a store that came of another one. -/
theorem Follows.passes_found (follows : Follows (others ++ [start]) footing store)
    (known : ∀ value ∈ handed, value.Known (fun _ => True) footing) :
    Passes [start, store] handed := by
  have apart := follows.settled.apart
  refine ⟨footing.array, ?_, fun value member => (known value member).usedAs apart⟩
  exact .cons_cons (follows.advances le_rfl apart (by simp)) (.singleton _)

/-- What is handed over and handed back, in stores that came of one another. -/
theorem Follows.passes_left (follows : Follows (others ++ [start]) footing store)
    (grows : footing ≤ after) (left : Follows (store :: (others ++ [start])) after changed)
    (known : ∀ value ∈ handed, value.Known (fun _ => True) after) :
    Passes [start, store, changed] handed := by
  have apart := left.settled.apart
  refine ⟨after.array, ?_, fun value member => (known value member).usedAs apart⟩
  exact .cons_cons (follows.advances grows apart (by simp))
    (.cons_cons (left.advances le_rfl apart (by simp)) (.singleton _))

end Store

namespace Eval.Watch

variable {start : Store} {openCalls : Nat} {footing : Footing} {handed : List Value}
  {x y : Eval Value}

open Classical in
/-- A computation that goes on by single changes passes the watch. The store that it finds is made
one of those that the later stores come of. -/
theorem same_passing (breach : Eval Value)
    (known : ∀ value ∈ handed, value.Known (fun _ => True) footing)
    (same : Same (fun others => Store.Follows.invariant (others ++ [start])) openCalls footing
      x y) :
    Same (fun others => Store.Follows.invariant (others ++ [start])) openCalls footing
      (passing start breach handed x) y := by
  intro others machine stands
  have found : Store.Follows (others ++ [start]) footing machine.store := stands.holds
  have ends := (same (machine.store :: others) machine ⟨stands.openCalls, found.cons_self⟩).2
  have unwatched : passing start breach handed x machine = x machine := by
    refine checked_eq breach (found.passes_found known) (fun value after result => ?_)
      fun error after result => ?_
    · rw [result] at ends
      obtain ⟨last, grows, stands', isKnown⟩ := ends
      refine found.passes_left grows stands'.holds ?_
      exact List.forall_mem_cons.mpr ⟨isKnown, fun value member => (known value member).grow grows⟩
    · rw [result] at ends
      obtain ⟨-, last, grows, stands'⟩ := ends
      exact found.passes_left grows stands'.holds fun value member =>
        (known value member).grow grows
  rw [unwatched]
  exact same others machine stands

/-- The watch on the history lets all evaluation pass. -/
theorem silent_onHistory (limit : Nat) (start : Store) (breach : Eval Value) :
    (onHistory start breach).Silent limit
      (fun others => Store.Follows.invariant (others ++ [start])) fun _ => True where
  deeper _ _ := trivial
  call _ known same := same_passing breach known same
  body _ known same := same_passing breach known same

end Eval.Watch

/-! ## Engines -/

namespace Engine

/-- A new engine has the outermost frame and one object. -/
theorem initialStore_settled : initialStore.Settled ⟨(· = 0), (· = 0), fun _ => False⟩ where
  known := by
    constructor
    · rintro _ frame rfl ⟨⟩
      exact ⟨List.forall_mem_cons.mpr ⟨trivial, List.forall_mem_singleton.mpr rfl⟩, nofun⟩
    · rintro _ object (rfl | ⟨⟨⟩⟩) ⟨⟩
      exact ⟨List.forall_mem_nil _, List.forall_mem_singleton.mpr trivial⟩
  frames id := Nat.lt_one_iff.symm
  places id := by
    show id = 0 ∨ False ↔ id < 1
    rw [or_false, Nat.lt_one_iff]
  apart _ _ := id
  older inner outer inside := by
    obtain ⟨frame, found, isParent⟩ := inside
    obtain rfl : inner = 0 := Nat.lt_one_iff.mp (Array.getElem?_eq_some_iff.mp found).1
    cases found
    cases isParent
  canonical id object found := by
    obtain rfl : id = 0 := Nat.lt_one_iff.mp (Array.getElem?_eq_some_iff.mp found).1
    cases found
    exact Object.Canonical.empty.set "log" _

/-- A script goes on from the store that it finds. -/
theorem evaluate_follows {engine : Engine} {footing : Footing} {starts : List Store}
    (follows : Store.Follows starts footing engine.machine.store) (place : footing.frame global)
    (code : String) :
    ∃ after, footing ≤ after ∧
      Store.Follows starts after (engine.evaluate code).2.machine.store ∧
      ∀ value, (engine.evaluate code).1 = .ok value → value.Known (fun _ => True) after := by
  unfold evaluate
  cases Program.parse code with
  | error error => exact ⟨footing, le_rfl, follows, nofun⟩
  | ok program =>
    have every : everyStmt (fun _ => True) program.body := everyStmt_of_forall (fun _ => trivial) _
    have ends := (Regime.keeping (Store.Follows.invariant starts)).runProgram_ends engine.limit
      ⟨rfl, follows⟩ place every
    unfold perform
    dsimp only
    cases result : runProgram engine.limit global program engine.machine with
    | ok value machine =>
      rw [result] at ends
      obtain ⟨after, grows, stands, known⟩ := ends
      refine ⟨after, grows, stands.holds, ?_⟩
      rintro _ ⟨⟩
      exact known
    | error error machine =>
      rw [result] at ends
      obtain ⟨-, after, grows, stands⟩ := ends
      exact ⟨after, grows, stands.holds, nofun⟩

/-- An engine after it ran scripts one after the other. -/
def afterAll (engine : Engine) (codes : List String) : Engine :=
  codes.foldl (fun engine code => (engine.evaluate code).2) engine

/-- Scripts that are run one after the other go on from the store that the first one finds. -/
theorem afterAll_goesOn {engine : Engine} {footing : Footing} {starts : List Store}
    (follows : Store.Follows starts footing engine.machine.store) (place : footing.frame global)
    (codes : List String) :
    ∃ after, footing ≤ after ∧
      Store.Follows starts after (engine.afterAll codes).machine.store := by
  induction codes generalizing engine footing with
  | nil => exact ⟨footing, le_rfl, follows⟩
  | cons first rest ih =>
    obtain ⟨middle, grows, follows', -⟩ := evaluate_follows follows place first
    obtain ⟨after, grows', ended⟩ := ih follows' (grows.1 global place)
    exact ⟨after, grows.trans grows', ended⟩

theorem afterAll_settled {engine : Engine} {footing : Footing}
    (settled : engine.machine.store.Settled footing) (place : footing.frame global)
    (codes : List String) :
    ∃ after, (engine.afterAll codes).machine.store.Settled after := by
  obtain ⟨after, -, follows⟩ := afterAll_goesOn (.refl settled) place codes
  exact ⟨after, follows.settled⟩

/-- Each of some scripts goes on from the store that the one before it left. -/
theorem afterAll_follows {engine : Engine} {footing : Footing}
    (settled : engine.machine.store.Settled footing) (place : footing.frame global)
    (codes : List String) :
    ∃ after, footing ≤ after ∧ (∀ id, after.object id → ¬ after.array id) ∧
      ∀ i code, codes[i]? = some code →
        ReflTransGen (Store.Proceeds after) (engine.afterAll (codes.take i)).machine.store
            (engine.afterAll (codes.take (i + 1))).machine.store ∧
          ∀ value, ((engine.afterAll (codes.take i)).evaluate code).1 = .ok value →
            value.Known (fun _ => True) after := by
  induction codes generalizing engine footing with
  | nil => exact ⟨footing, le_rfl, settled.apart, nofun⟩
  | cons first rest ih =>
    obtain ⟨middle, grows, follows, known⟩ := evaluate_follows (.refl settled) place first
    obtain ⟨after, grows', apart, later⟩ := ih follows.settled (grows.1 global place)
    refine ⟨after, grows.trans grows', apart, fun i code found => ?_⟩
    cases i with
    | zero =>
      cases found
      refine ⟨?_, fun value isValue => (known value isValue).grow grows'⟩
      exact ReflTransGen.mono (Store.Proceeds.grow grows') _ _
        (follows.history _ (List.mem_singleton_self _))
    | succ i => exact later i code found

end Engine

/-- A script in an engine that ran others, with the history of the store under watch. -/
theorem Engine.onHistory_eq (limit : Nat) (sink : Sink) (codes : List String) (breach : Eval Value)
    (program : Program) :
    let engine := (Engine.new limit sink).afterAll codes
    (Watch.onHistory initialStore breach).program engine.limit global program engine.machine =
      runProgram engine.limit global program engine.machine := by
  intro engine
  have settled : (Engine.new limit sink).machine.store.Settled _ := initialStore_settled
  obtain ⟨after, grows, follows⟩ := afterAll_goesOn (.refl settled) rfl codes
  have silent := Watch.silent_onHistory engine.limit initialStore breach
  exact silent.program_eq (i := []) trivial follows (grows.1 global rfl) program

/-- From a new engine on, the store goes through single changes, script by script. After each
of them it is orderly, and frames keep their parents and names. No place is ever used as an
object by one value and as an array by another, be it in the store or the result of a script. If
the history of the store is looked at whenever a function is called and whenever a body begins and
ends, the watch is never broken. The sink is arbitrary; with one that refuses a line, the store at
that line is the last one. -/
theorem runs_keep_order (limit : Nat) (sink : Sink) (codes : List String) :
    ∃ isArray : ObjectId → Prop,
      let engine := fun count => (Engine.new limit sink).afterAll (codes.take count)
      (engine 0).machine.store.Orderly isArray ∧
      (∀ i code, codes[i]? = some code →
        ReflTransGen (Store.Advances isArray) (engine i).machine.store
            (engine (i + 1)).machine.store ∧
          ∀ value, ((engine i).evaluate code).1 = .ok value → value.UsedAs isArray) ∧
      (∀ i breach program,
        (Watch.onHistory Engine.initialStore breach).program (engine i).limit Engine.global program
            (engine i).machine =
          runProgram (engine i).limit Engine.global program (engine i).machine) ∧
      ∀ i j, i ≤ j → (engine i).machine.store.Keeps (engine j).machine.store := by
  have settled : (Engine.new limit sink).machine.store.Settled _ := Engine.initialStore_settled
  obtain ⟨after, grows, apart, each⟩ := Engine.afterAll_follows settled rfl codes
  refine ⟨after.array, (settled.lawful.grow grows).orderly apart,
    fun i code found => ⟨?_, ?_⟩, fun i => ?_, fun i j le => ?_⟩
  · exact ReflTransGen.mono (Store.Proceeds.advances apart) _ _ (each i code found).1
  · exact fun value isValue => ((each i code found).2 value isValue).usedAs apart
  · exact Engine.onHistory_eq limit sink (codes.take i)
  · induction le with
    | refl => exact .of_eq rfl
    | @step j _ ih =>
      refine ih.trans ?_
      cases found : codes[j]? with
      | some code => exact Store.keeps_of_history (each j code found).1
      | none =>
        have all : codes.length ≤ j := List.getElem?_eq_none_iff.mp found
        dsimp only
        rw [List.take_of_length_le all, List.take_of_length_le (Nat.le_succ_of_le all)]
        exact .of_eq rfl

end Scriptlet
