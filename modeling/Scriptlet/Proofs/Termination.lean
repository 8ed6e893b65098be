import Mathlib.Data.Finset.Card
import Mathlib.Data.Finset.Prod
import Scriptlet.Engine
import Scriptlet.Proofs.Discipline.Tracking
import Scriptlet.Proofs.Recursion

/-!
# Every run ends

Evaluation recurs on trees, except in four places: a call runs the body of a function that
it got as a value, writing and comparing values follow references through the store, and a
name is looked for from frame to frame. Each of these is the only solution of its own
equation, in which nothing is counted, and a bounded number of rounds reaches it from any
start. So no run depends on what an endless recursion would give.
-/

namespace Scriptlet

open Eval

/-! ## Calls -/

/-- The number of open calls that a computation ends with. -/
def openAfter {α : Type} : EStateM.Result Error Machine α → Nat
  | .ok _ machine | .error _ machine => machine.openCalls

theorem Regime.Ends.openAfter_eq {α : Type} {regime : Regime} {openCalls : Nat}
    {footing : Footing} {post : Footing → α → Prop} {result : EStateM.Result Error Machine α}
    (ends : regime.Ends openCalls footing post result) : openAfter result = openCalls := by
  cases result with
  | ok value machine =>
    obtain ⟨_, _, stands, _⟩ := ends
    exact stands.openCalls
  | error error machine =>
    obtain ⟨_, _, _, stands⟩ := ends
    exact stands.openCalls

/-- In the regime that allows everything, only the number of open calls matters. -/
theorem Regime.any_ends {openCalls : Nat} {footing : Footing}
    {result : EStateM.Result Error Machine Value} (balanced : openAfter result = openCalls) :
    Regime.any.Ends openCalls footing (Value.Known Regime.any.node) result := by
  have grows : footing ≤ .all := ⟨fun _ _ => trivial, fun _ _ => trivial, fun _ _ => trivial⟩
  cases result with
  | ok value machine =>
    exact ⟨.all, grows, ⟨balanced, machine.store.known_all⟩, value.known_all⟩
  | error error machine => exact ⟨trivial, .all, grows, balanced, machine.store.known_all⟩

/-- A call on a machine. -/
structure Invocation where
  function : Function
  receiver : Option Value
  arguments : List Value
  machine : Machine

/-- What a way of calling functions makes of a call. -/
def Invocation.result (invocation : Invocation) (call : Call) :
    EStateM.Result Error Machine Value :=
  call invocation.function invocation.receiver invocation.arguments invocation.machine

/-- The calls that can still be opened. -/
def Invocation.room (limit : Nat) (invocation : Invocation) : Nat :=
  limit - invocation.machine.openCalls

/-- A call answers by calls with less room, because it opens a call itself, and every call
that is made from its body finds the same number of open calls. -/
theorem callStep_descends (limit : Nat) :
    Descends Invocation.result (Invocation.room limit)
      (fun invocation result => openAfter result = invocation.machine.openCalls)
      (callStep limit) where
  ext same := by
    funext function receiver arguments machine
    exact same ⟨function, receiver, arguments, machine⟩
  step {a b invocation} smaller := by
    -- The body runs with one more open call, so every call that it makes has less room.
    have deeper : invocation.machine.openCalls < limit →
        (Regime.any.tracking (invocation.machine.openCalls + 1)).Calls a b := by
      intro room footing function receiver arguments _ _ _ machine stands
      obtain ⟨same, balanced⟩ := smaller ⟨function, receiver, arguments, machine⟩ (by
        simp only [Invocation.room, stands.openCalls]
        omega)
      exact ⟨same, Regime.any_ends (balanced.trans stands.openCalls)⟩
    obtain ⟨same, ends⟩ := Regime.calls_callStep limit deeper
      invocation.function.known_all (fun value _ => value.known_all)
      (fun value _ => value.known_all) invocation.machine ⟨rfl, invocation.machine.store.known_all⟩
    exact ⟨same, ends.openAfter_eq⟩

/-- What is called when no room is left. -/
def refuse (limit : Nat) : Call := fun _ _ _ => throw (.tooDeep limit)

theorem callFunction_eq_iterate (limit room : Nat) :
    callFunction limit room = (callStep limit)^[room] (refuse limit) := by
  induction room with
  | zero => rfl
  | succ room ih =>
    rw [Function.iterate_succ_apply', ← ih]
    rfl

theorem callStep_settles (limit : Nat) :
    Settles Invocation.result (Invocation.room limit) (callStep limit) (callWithin limit) := by
  refine (callStep_descends limit).settles (refuse limit) fun invocation => ?_
  simp only [Invocation.result, Invocation.room, callWithin, callRoom, callFunction_eq_iterate]

/-- With room for all calls, neither the number of rounds nor the start matters. -/
theorem calls_iterate {limit openCalls m n : Nat} (start start' : Call)
    (enough : limit - openCalls < m) (enough' : limit - openCalls < n) :
    (Regime.any.tracking openCalls).Calls ((callStep limit)^[m] start)
      ((callStep limit)^[n] start') := by
  intro footing function receiver arguments _ _ _ machine stands
  have room :
      Invocation.room limit ⟨function, receiver, arguments, machine⟩ = limit - openCalls := by
    rw [← stands.openCalls]
    rfl
  obtain ⟨same, balanced⟩ := (callStep_descends limit).iterate start start'
    (room.trans_lt enough) (room.trans_lt enough')
  exact ⟨same, Regime.any_ends (balanced.trans stands.openCalls)⟩

theorem runProgram_eq_iterate {limit rounds : Nat} (start : Call) (scope : FrameId)
    (program : Program) {machine : Machine} (enough : limit - machine.openCalls < rounds) :
    runProgram limit scope program machine =
      (Completion.value <$> runStmts ((callStep limit)^[rounds] start) scope program.body)
        machine := by
  have calls := calls_iterate start (refuse limit) enough (Nat.lt_succ_self _)
  have run : (Regime.any.tracking machine.openCalls).relates .all (fun _ _ => True)
      (Completion.value <$> runStmts ((callStep limit)^[rounds] start) scope program.body)
      (Completion.value <$> runStmts (callFunction limit (callRoom limit machine)) scope
        program.body) := by
    rw [map_eq_pure_bind, map_eq_pure_bind, callFunction_eq_iterate]
    have every := everyStmt_of_forall (fun _ => trivial) program.body
    exact Discipline.andThen (Discipline.relates_runStmts calls trivial every)
      fun _ _ _ => Discipline.keeps_pure trivial
  exact (run machine ⟨rfl, machine.store.known_all⟩).1.symm

/-! ## Writing values -/

/-- The body of writing a value, with the recursive use left open. -/
def Store.displayRecursion (store : Store) (text : List ObjectId → Value → String) :
    List ObjectId → Value → String :=
  fun path => store.displayStep (fun id => text (id :: path)) path

/-- The number of places that are not on a path. -/
def unopened {γ : Type} [DecidableEq γ] (places : Finset γ) (path : List γ) : ℕ :=
  (places \ path.toFinset).card

theorem unopened_nil {γ : Type} [DecidableEq γ] (places : Finset γ) :
    unopened places [] = places.card := by
  simp [unopened]

theorem unopened_cons_lt {γ : Type} [DecidableEq γ] {places : Finset γ} {path : List γ} {place : γ}
    (inside : place ∈ places) (closed : place ∉ path) :
    unopened places (place :: path) < unopened places path := by
  apply Finset.card_lt_card
  refine Finset.ssubset_iff_subset_ne.mpr ⟨?_, fun same => ?_⟩
  · intro other member
    simp only [Finset.mem_sdiff, List.mem_toFinset, List.mem_cons, not_or] at member ⊢
    exact ⟨member.1, member.2.2⟩
  · have left : place ∈ places \ (place :: path).toFinset := by
      rw [same]
      simp [inside, closed]
    simp at left

/-- The places of objects and arrays. -/
def Store.places (store : Store) : Finset ObjectId :=
  Finset.range store.objects.size

/-- A place outside the store has no properties. -/
theorem Store.objectAt_outside {store : Store} {id : ObjectId}
    (outside : id ∉ store.places) : store.objectAt id = .empty := by
  have beyond : store.objects.size ≤ id := by simpa [Store.places] using outside
  rw [Store.objectAt, Array.getElem?_eq_none beyond]
  rfl

theorem Store.display_descends (store : Store) :
    Descends (fun (i : List ObjectId × Value) text => text i.1 i.2)
      (fun i => unopened store.places i.1) (fun _ _ => True) store.displayRecursion where
  ext same := by
    funext path value
    exact same (path, value)
  step {text text' question} smaller := by
    obtain ⟨path, value⟩ := question
    refine ⟨?_, trivial⟩
    -- a place in the store is opened for good, one outside it has nothing to write
    have nested (id : ObjectId) (closed : id ∉ path) :
        store.objectAt id = .empty ∨ text (id :: path) = text' (id :: path) := by
      by_cases inside : id ∈ store.places
      · right
        funext inner
        exact (smaller (id :: path, inner) (unopened_cons_lt inside closed)).1
      · exact .inl (Store.objectAt_outside inside)
    cases value with
    | object id =>
      simp only [Store.displayRecursion, Store.displayStep, List.contains_iff_mem]
      split
      · rfl
      · next closed =>
        rcases nested id closed with empty | same
        · rw [empty]
          rfl
        · rw [same]
    | array id =>
      simp only [Store.displayRecursion, Store.displayStep, List.contains_iff_mem]
      split
      · rfl
      · next closed =>
        rcases nested id closed with empty | same
        · rw [empty]
          rfl
        · rw [same]
    | _ => rfl

theorem Store.displayNested_eq_iterate (store : Store) (room : ℕ) :
    store.displayNested room = store.displayRecursion^[room] fun _ _ => Store.circularMark := by
  induction room with
  | zero => rfl
  | succ room ih =>
    rw [Function.iterate_succ_apply', ← ih]
    rfl

/-- A value as it is written while the objects of a path are open. -/
def Store.displayWithin (store : Store) (path : List ObjectId) (value : Value) : String :=
  store.displayNested (unopened store.places path + 1) path value

theorem Store.display_settles (store : Store) :
    Settles (fun (i : List ObjectId × Value) text => text i.1 i.2)
      (fun i => unopened store.places i.1) store.displayRecursion store.displayWithin := by
  refine store.display_descends.settles (fun _ _ => Store.circularMark) fun question => ?_
  rw [← Store.displayNested_eq_iterate]
  rfl

theorem Store.display_eq_within (store : Store) {value : Value} (other : value.isText = false) :
    store.display value = store.displayWithin [] value := by
  rw [Store.displayWithin, unopened_nil, Store.places, Finset.card_range]
  cases value with
  | string text => cases other
  | _ => rfl

/-! ## Comparing values -/

/-- The body of comparing two values, with the recursive use left open. -/
def Store.equalityRecursion (store : Store)
    (equal : List (ObjectId × ObjectId) → Value → Value → Bool) :
    List (ObjectId × ObjectId) → Value → Value → Bool :=
  fun path => store.looseEqualsStep (fun pair => equal (pair :: path)) path

/-- Where one of two objects is empty, no values are compared. -/
theorem Object.matches_eq_of_empty {related related' : Value → Value → Bool}
    {left right : Object} (empty : left = .empty ∨ right = .empty) :
    left.matches related right = left.matches related' right := by
  rcases empty with rfl | rfl
  · rfl
  · unfold Object.matches
    by_cases none : left.entries = []
    · simp [none]
    · have different : (left.entries.length == Object.empty.entries.length) = false := by
        simpa [Object.empty, Object.entries] using none
      rw [different, Bool.false_and, Bool.false_and]

theorem Store.equality_descends (store : Store) :
    Descends (fun (i : List (ObjectId × ObjectId) × Value × Value) equal => equal i.1 i.2.1 i.2.2)
      (fun i => unopened (store.places ×ˢ store.places) i.1) (fun _ _ => True)
      store.equalityRecursion where
  ext same := by
    funext path left right
    exact same (path, left, right)
  step {equal equal' question} smaller := by
    obtain ⟨path, left, right⟩ := question
    refine ⟨?_, trivial⟩
    simp only [Store.equalityRecursion, Store.looseEqualsStep]
    cases left.places? right with
    | none => rfl
    | some pair =>
      dsimp only
      split
      · rfl
      · next unequal =>
        have closed : pair ∉ path := by
          intro member
          simp [member] at unequal
        by_cases inside : pair ∈ store.places ×ˢ store.places
        · have same : equal (pair :: path) = equal' (pair :: path) := by
            funext first second
            exact (smaller (pair :: path, first, second) (unopened_cons_lt inside closed)).1
          rw [same]
        · rw [Finset.mem_product, not_and_or] at inside
          exact Object.matches_eq_of_empty
            (inside.imp Store.objectAt_outside Store.objectAt_outside)

theorem Store.looseEqualsOn_eq_iterate (store : Store) (room : ℕ) :
    store.looseEqualsOn room = store.equalityRecursion^[room] fun _ _ _ => true := by
  induction room with
  | zero => rfl
  | succ room ih =>
    rw [Function.iterate_succ_apply', ← ih]
    rfl

/-- Whether two values are equal while the pairs of a path are being compared. -/
def Store.equalWithin (store : Store) (path : List (ObjectId × ObjectId)) (left right : Value) :
    Bool :=
  store.looseEqualsOn (unopened (store.places ×ˢ store.places) path + 1) path left right

theorem Store.equality_settles (store : Store) :
    Settles (fun (i : List (ObjectId × ObjectId) × Value × Value) equal => equal i.1 i.2.1 i.2.2)
      (fun i => unopened (store.places ×ˢ store.places) i.1) store.equalityRecursion
      store.equalWithin := by
  refine store.equality_descends.settles (fun _ _ _ => true) fun question => ?_
  rw [← Store.looseEqualsOn_eq_iterate]
  rfl

theorem Store.looseEquals_eq_within (store : Store) (left right : Value) :
    store.looseEquals left right = store.equalWithin [] left right := by
  rw [Store.equalWithin, unopened_nil, Finset.card_product, Store.places, Finset.card_range]
  rfl

/-! ## Looking for names -/

/-- The body of following a scope outwards, with the recursive use left open. -/
def Store.chainRecursion (store : Store) (chain : FrameId → List FrameId) (scope : FrameId) :
    List FrameId :=
  scope ::
    match store.parent? scope with
    | some parent => chain parent
    | none => []

theorem Store.parent?_lt {store : Store} {scope parent : FrameId}
    (outer : store.parent? scope = some parent) : parent < scope := by
  unfold Store.parent? at outer
  obtain ⟨-, earlier⟩ := Option.filter_eq_some_iff.mp outer
  exact of_decide_eq_true earlier

theorem Store.chain_descends (store : Store) :
    Descends (fun (scope : FrameId) (chain : FrameId → List FrameId) => chain scope) id
      (fun _ _ => True) store.chainRecursion where
  ext same := funext same
  step {chain chain' scope} smaller := by
    refine ⟨?_, trivial⟩
    simp only [Store.chainRecursion]
    cases outer : store.parent? scope with
    | none => rfl
    | some parent => exact congrArg (scope :: ·) (smaller parent (Store.parent?_lt outer)).1

theorem Store.chainUpTo_eq_iterate (store : Store) (count : ℕ) :
    store.chainUpTo count = store.chainRecursion^[count] fun _ => [] := by
  induction count with
  | zero => rfl
  | succ count ih =>
    rw [Function.iterate_succ_apply', ← ih]
    rfl

theorem Store.chain_settles (store : Store) :
    Settles (fun (scope : FrameId) (chain : FrameId → List FrameId) => chain scope) id
      store.chainRecursion store.chain := by
  refine store.chain_descends.settles (fun _ => []) fun scope => ?_
  rw [← Store.chainUpTo_eq_iterate]
  rfl

/-! ## Evaluation -/

/-- Running a script and calling a function end for every tree, store and limit. A call is
measured by the calls that may still be opened, writing and comparing by the places that
are not on the path, a scope by its own place. -/
theorem evaluation_settles (limit : ℕ) :
    Settles Invocation.result (Invocation.room limit) (callStep limit) (callWithin limit) ∧
      (∀ (start : Call) (scope : FrameId) (program : Program) (machine : Machine) (rounds : ℕ),
        limit - machine.openCalls < rounds →
        runProgram limit scope program machine =
          (Completion.value <$> runStmts ((callStep limit)^[rounds] start) scope program.body)
            machine) ∧
      ∀ store : Store,
        (Settles (fun (i : List ObjectId × Value) text => text i.1 i.2)
            (fun i => unopened store.places i.1) store.displayRecursion store.displayWithin ∧
          ∀ value : Value, value.isText = false →
            store.display value = store.displayWithin [] value) ∧
        (Settles
            (fun (i : List (ObjectId × ObjectId) × Value × Value) equal => equal i.1 i.2.1 i.2.2)
            (fun i => unopened (store.places ×ˢ store.places) i.1) store.equalityRecursion
            store.equalWithin ∧
          ∀ left right : Value, store.looseEquals left right = store.equalWithin [] left right) ∧
        Settles (fun (scope : FrameId) (chain : FrameId → List FrameId) => chain scope) id
          store.chainRecursion store.chain := by
  refine ⟨callStep_settles limit, fun start scope program machine rounds enough => ?_,
    fun store => ?_⟩
  · exact runProgram_eq_iterate start scope program enough
  · exact ⟨⟨store.display_settles, fun _ other => store.display_eq_within other⟩,
      ⟨store.equality_settles, store.looseEquals_eq_within⟩, store.chain_settles⟩

/-- A function that calls itself without end. -/
def selfCalling : Program :=
  ⟨[.function ⟨some "f", [], [.return_ (some (.call (.identifier "f") []))], false⟩,
    .expression (.call (.identifier "f") [])]⟩

/-- An object that holds itself. -/
def selfHolding : Store :=
  Store.empty.addObject (Object.empty.set "a" (.object 0))

/-- At a limit of three calls, four rounds of the recursion decide how a function that calls
itself ends; one object that holds itself is written once. -/
theorem selfCalling_settles :
    (∃ after, (Completion.value <$> runStmts ((callStep 3)^[4] (refuse 0)) Engine.global
        selfCalling.body) ⟨Engine.initialStore, .unlimited, 0⟩ = .error (.tooDeep 3) after) ∧
      selfHolding.displayWithin [] (.object 0) = "\x7b a: [Circular] \x7d" := by
  constructor
  · rw [← (evaluation_settles 3).2.1 (refuse 0) Engine.global selfCalling _ 4 (by decide)]
    exact ⟨_, rfl⟩
  · rw [← ((evaluation_settles 3).2.2 selfHolding).1.2 (.object 0) rfl]
    decide +kernel

end Scriptlet
