import Scriptlet.Proofs.History

/-!
# Properties through handles

Values that refer to the same object share its properties: what is written through one of them
is read through all of them, and nothing else is read differently. The length of an array is the
exception. It is computed from the indices that are there, so it follows every write of an index
and no write under its own name. Values without properties refuse, and change nothing.
-/

namespace Scriptlet

/-- Whether a property of a value is computed and not stored: the length of an array. -/
def Value.computes : Value → String → Bool
  | .array _, key => key == "length"
  | _, _ => false

namespace Store

variable {store after : Store} {target : Value} {id : ObjectId} {key : String}

/-- Whether every array gives as its length one more than its highest index. -/
def CountsIndices (store : Store) : Prop :=
  ∀ id, ∃ length : Nat,
    store.getProperty (.array id) "length" = .ok (.number (Number.ofInt length)) ∧
      Object.IsLength (fun key => store.hasProperty (.array id) key = .ok true) length

/-- What values show after one property of one object was given a value, or was taken out. Other
properties are as before, those of other objects with their lengths, and every length counts the
indices that are there now. -/
structure Shows (before after : Store) (id : ObjectId) (key : String) (value : Option Value) :
    Prop where
  read : ∀ target : Value, target.object? = some id → target.computes key = false →
    after.getProperty target key = .ok (value.getD .undefined)
  has : ∀ target : Value, target.object? = some id →
    after.hasProperty target key = .ok (target.computes key || value.isSome)
  others : ∀ (target : Value) (place : ObjectId) (other : String), target.object? = some place →
    place ≠ id ∨ other ≠ key →
    after.hasProperty target other = before.hasProperty target other ∧
      (place ≠ id ∨ target.computes other = false →
        after.getProperty target other = before.getProperty target other)
  lengths : after.CountsIndices
  canonical : after.Canonical

/-! ## Reading -/

theorem getProperty_of_object (handle : target.object? = some id) :
    store.getProperty target key =
      .ok (if target.computes key then .number (Number.ofInt (store.objectAt id).length)
        else ((store.objectAt id).get? key).getD .undefined) := by
  cases target with
  | object place =>
    cases handle
    rfl
  | array place =>
    cases handle
    unfold getProperty Value.computes
    by_cases isLength : key = "length"
    · simp [isLength]
    · simp [isLength]
  | _ => cases handle

theorem hasProperty_of_object (handle : target.object? = some id) :
    store.hasProperty target key =
      .ok (target.computes key || ((store.objectAt id).get? key).isSome) := by
  cases target with
  | object place =>
    cases handle
    rfl
  | array place =>
    cases handle
    unfold hasProperty Value.computes
    by_cases isLength : key = "length"
    · simp [isLength]
    · simp [isLength, Object.contains]
  | _ => cases handle

/-- The length of an array is no index. -/
theorem computes_toString {index : Nat} (below : index < Key.indexBound) (target : Value) :
    target.computes (toString index) = false := by
  have different : toString index ≠ "length" := by
    intro same
    have shape := Key.ofText_toString below
    have isName : Key.ofText "length" = .name "length" := by decide +kernel
    rw [same, isName] at shape
    cases shape
  cases target with
  | array id => simpa [Value.computes] using different
  | _ => rfl

theorem Canonical.countsIndices (canonical : store.Canonical) : store.CountsIndices := by
  intro id
  have isLength := (canonical id).isLength
  have stored {index : Nat} (below : index < Key.indexBound) :
      store.hasProperty (.array id) (toString index) = .ok true ↔
        ((store.objectAt id).get? (toString index)).isSome = true := by
    rw [hasProperty_of_object rfl, computes_toString below]
    simp
  refine ⟨_, getProperty_of_object rfl, fun index below has => ?_, ?_⟩
  · exact isLength.above index below ((stored below).mp has)
  · refine isLength.reached.imp_right ?_
    rintro ⟨index, below, present, one⟩
    exact ⟨index, below, (stored below).mpr present, one⟩

/-! ## Writing -/

theorem objectAt_modifyObject (inside : id < store.objects.size) (change : Object → Object)
    (place : ObjectId) :
    (store.modifyObject id change).objectAt place =
      if place = id then change (store.objectAt id) else store.objectAt place := by
  unfold objectAt modifyObject
  rw [Array.getElem?_modify]
  by_cases same : id = place
  · subst same
    simp [inside]
  · simp [same, Ne.symm same]

theorem Canonical.modifyObject (canonical : store.Canonical) (inside : id < store.objects.size)
    {change : Object → Object} (keeps : (change (store.objectAt id)).Canonical) :
    (store.modifyObject id change).Canonical := by
  intro place
  rw [objectAt_modifyObject inside]
  split
  · exact keeps
  · exact canonical place

/-- A change of one property shows through every handle of its object, and nowhere else. -/
theorem shows_modifyObject (inside : id < store.objects.size) {change : Object → Object}
    {value : Option Value} (canonical : (store.modifyObject id change).Canonical)
    (changes : ∀ other, (change (store.objectAt id)).get? other =
      if other = key then value else (store.objectAt id).get? other) :
    store.Shows (store.modifyObject id change) id key value where
  read target handle stored := by
    rw [getProperty_of_object handle, objectAt_modifyObject inside, if_pos rfl, changes, stored]
    simp
  has target handle := by
    rw [hasProperty_of_object handle, objectAt_modifyObject inside, if_pos rfl, changes,
      if_pos rfl]
  others target place other handle apart := by
    have same : ((store.modifyObject id change).objectAt place).get? other =
        (store.objectAt place).get? other := by
      rw [objectAt_modifyObject inside]
      split
      · next isPlace =>
        -- the object is the changed one, so the key is another
        rw [changes, if_neg (apart.resolve_left (not_not_intro isPlace)), isPlace]
      · rfl
    refine ⟨?_, fun stored => ?_⟩
    · rw [hasProperty_of_object handle, hasProperty_of_object handle, same]
    · rw [getProperty_of_object handle, getProperty_of_object handle, same]
      -- a length that is computed is the same only if the whole object is
      rcases stored with elsewhere | stored
      · rw [objectAt_modifyObject inside, if_neg elsewhere]
      · simp [stored]
  lengths := canonical.countsIndices
  canonical := canonical

theorem setProperty_shows (canonical : store.Canonical) (handle : target.object? = some id)
    (inside : id < store.objects.size) (key : String) (value : Value) :
    ∃ after, store.setProperty target key value = .ok after ∧
      store.Shows after id key (some value) := by
  refine ⟨store.modifyObject id (·.set key value), ?_, ?_⟩
  · unfold setProperty
    rw [handle]
  · have keeps := (canonical id).set key value
    exact shows_modifyObject inside (canonical.modifyObject inside keeps)
      fun other => (store.objectAt id).get?_set key other value

theorem deleteProperty_shows (canonical : store.Canonical) (handle : target.object? = some id)
    (inside : id < store.objects.size) (key : String) :
    ∃ existed after, store.deleteProperty target key = .ok (existed, after) ∧
      store.hasProperty (.object id) key = .ok existed ∧ store.Shows after id key none := by
  refine ⟨_, store.modifyObject id (·.remove key), ?_, rfl, ?_⟩
  · unfold deleteProperty
    rw [handle]
  · have keeps := (canonical id).remove key
    exact shows_modifyObject inside (canonical.modifyObject inside keeps)
      fun other => (canonical id).get?_remove key other

end Store

/-! ## Values without properties -/

namespace Eval

variable {target : Value}

/-- Reading, writing, taking out and looking for a property all fail, and leave the machine as it
was. -/
structure Refuses (target : Value) (key : String) (machine : Machine) : Prop where
  get : getProperty target key machine =
    .error (.type (.cannotRead target.typeName key)) machine
  set : ∀ value, setReference (.property target key) value machine =
    .error (.type (.cannotSet target.typeName key)) machine
  delete : deleteReference (.property target key) machine =
    .error (.type (.cannotDelete target.typeName key)) machine
  has : binary .in_ (.string key) target machine =
    .error (.type (.cannotSearch target.typeName key)) machine

theorem refuses_of_plain (plain : target.object? = none) (key : String) (machine : Machine) :
    Refuses target key machine := by
  cases target with
  | object id => cases plain
  | array id => cases plain
  | _ => exact ⟨rfl, fun _ => rfl, rfl, rfl⟩

end Eval

open Eval

/-- What is written through a handle is read through every handle of the same object, under the
same key alone, and what is taken out reads as undefined; the length of an array always counts its
indices. A value without properties fails with a type error, and the store stays as it was. All
this is so of canonical stores, which stay canonical, and every store is that scripts leave. -/
theorem writes_show_through_handles :
    (∀ store : Store, store.Canonical →
      store.CountsIndices ∧
        (∀ (target : Value) (id : ObjectId), target.object? = some id → id < store.objects.size →
          ∀ key : String,
            (∀ value, ∃ after, store.setProperty target key value = .ok after ∧
              store.Shows after id key (some value)) ∧
            ∃ existed after, store.deleteProperty target key = .ok (existed, after) ∧
              store.hasProperty (.object id) key = .ok existed ∧ store.Shows after id key none) ∧
        ∀ (target : Value) (key : String) (sink : Sink) (openCalls : Nat), target.object? = none →
          Refuses target key ⟨store, sink, openCalls⟩) ∧
      ∀ (limit : Nat) (sink : Sink) (codes : List String),
        ((Engine.new limit sink).afterAll codes).machine.store.Canonical := by
  refine ⟨fun store canonical => ⟨canonical.countsIndices,
    fun target id handle inside key => ⟨fun value => ?_, ?_⟩,
    fun target key sink openCalls plain => ?_⟩, fun limit sink codes => ?_⟩
  · exact Store.setProperty_shows canonical handle inside key value
  · exact Store.deleteProperty_shows canonical handle inside key
  · exact refuses_of_plain plain key _
  · have settled : (Engine.new limit sink).machine.store.Settled _ := Engine.initialStore_settled
    obtain ⟨after, isSettled⟩ := Engine.afterAll_settled settled rfl codes
    exact isSettled.canonicalStore

/-- An array of one element, and an object that holds it. -/
def heldArray : Store :=
  (Store.empty.addObject (.ofElements [some .null])).addObject
    (Object.empty.set "a" (.array 0))

/-- An element that is put at a far index is read through every handle of the array, the object
that holds the array is as before, and text has no properties. -/
theorem heldArray_shows :
    heldArray.Canonical ∧
      (∃ after, heldArray.setProperty (.array 0) "4" (.boolean true) = .ok after ∧
        after.getProperty (.array 0) "4" = .ok (.boolean true) ∧
        after.hasProperty (.object 0) "4" = .ok true ∧
        after.getProperty (.object 1) "a" = heldArray.getProperty (.object 1) "a") ∧
      Refuses (.string "text") "length" ⟨heldArray, .unlimited, 0⟩ := by
  have canonical : heldArray.Canonical := by
    intro id
    match id with
    | 0 => exact .ofElements (by decide)
    | 1 => exact Object.Canonical.empty.set "a" _
    | id + 2 => exact .empty
  obtain ⟨-, writes, refuses⟩ := writes_show_through_handles.1 heldArray canonical
  obtain ⟨after, isSet, shows⟩ := (writes (.array 0) 0 rfl (by decide) "4").1 (.boolean true)
  refine ⟨canonical, ⟨after, isSet, shows.read _ rfl (by decide), shows.has (.object 0) rfl, ?_⟩,
    refuses (.string "text") "length" .unlimited 0 rfl⟩
  exact (shows.others (.object 1) 1 "a" rfl (.inl (by decide))).2 (.inr rfl)

end Scriptlet
