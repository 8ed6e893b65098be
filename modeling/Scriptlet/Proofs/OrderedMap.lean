import Scriptlet.Proofs.Canonical

/-!
# Objects as ordered maps

An object keeps indices and names apart, but it behaves like one map from texts. What a key
has depends on the last change to that key alone. The indices are listed first, in ascending
order, then the names in the order of their arrival: a name arrives when it is set while it is
absent, so that setting it again keeps its place, and taking it out gives its place up.
-/

namespace Scriptlet
namespace Object

/-! ## Changes -/

/-- A change of an object. -/
inductive Change where
  | set (key : String) (value : Value)
  | remove (key : String)

namespace Change

/-- The only key that a change is about. -/
def key : Change → String
  | .set key _ | .remove key => key

/-- What the key has after the change. -/
def outcome : Change → Option Value
  | .set _ value => some value
  | .remove _ => none

/-- Makes a change. -/
def apply (object : Object) : Change → Object
  | .set key value => object.set key value
  | .remove key => (object.takeOut key).2

end Change

/-- An object after changes one after the other. -/
def afterChanges (object : Object) (changes : List Change) : Object :=
  changes.foldl Change.apply object

/-- An object as it is made: without properties, or of the elements of an array literal. -/
inductive Made : List (Option Value) → Object → Prop where
  | empty : Made [] .empty
  | ofElements {elements : List (Option Value)} {object : Object}
      (returned : Object.ofElements? elements = some object) : Made elements object

/-! ## What a history says -/

/-- The element whose place is written as the key. -/
def elementAt (elements : List (Option Value)) (key : String) : Option Value :=
  ((List.range elements.length).find? (toString · == key)).bind (elements[·]?.join)

/-- What a key has after an object was made of elements and changed: what the last change to
that key says, or else the element. -/
def valueAfter (elements : List (Option Value)) (changes : List Change) (key : String) :
    Option Value :=
  match (changes.filter (·.key == key)).getLast? with
  | some change => change.outcome
  | none => elementAt elements key

/-- Whether a key that is there arrived with the change at a position: that change set it, it
was absent before, and it has been there ever since. -/
structure ArrivesAt (elements : List (Option Value)) (changes : List Change) (key : String)
    (position : Nat) : Prop where
  set : ∃ value, changes[position]? = some (.set key value)
  absent : valueAfter elements (changes.take position) key = none
  kept : ∀ count, position < count → count ≤ changes.length →
    (valueAfter elements (changes.take count) key).isSome

/-- Whether one key arrived before another. -/
def ArrivesBefore (elements : List (Option Value)) (changes : List Change) (key other : String) :
    Prop :=
  ∃ position later, ArrivesAt elements changes key position ∧
    ArrivesAt elements changes other later ∧ position < later

/-- Whether an object is the ordered map that a history tells of. -/
structure Reflects (elements : List (Option Value)) (changes : List Change) (object : Object) :
    Prop where
  get : ∀ key, object.get? key = valueAfter elements changes key
  contains : ∀ key, object.contains key = (valueAfter elements changes key).isSome
  takeOut : ∀ key, (object.takeOut key).1 = valueAfter elements changes key
  once : (object.entries.map (·.1)).Nodup
  entries : ∃ (indexed : List (Nat × Value)) (named : List (String × Value)),
    object.entries = indexed.map (fun (index, value) => (.index index, value)) ++
      named.map (fun (name, value) => (.name name, value)) ∧
    indexed.Pairwise (fun one next => one.1 < next.1) ∧
    named.Pairwise (fun one next => ArrivesBefore elements changes one.1 next.1) ∧
    (∀ index value, (index, value) ∈ indexed ↔
      index < Key.indexBound ∧ valueAfter elements changes (toString index) = some value) ∧
    ∀ name value, (name, value) ∈ named ↔
      (∀ index < Key.indexBound, name ≠ toString index) ∧
        valueAfter elements changes name = some value
  length : IsLength (fun key => (valueAfter elements changes key).isSome) object.length

variable {elements : List (Option Value)} {changes : List Change} {start object : Object}

theorem afterChanges_concat (object : Object) (changes : List Change) (change : Change) :
    object.afterChanges (changes ++ [change]) = change.apply (object.afterChanges changes) := by
  simp [afterChanges]

theorem valueAfter_concat (elements : List (Option Value)) (changes : List Change)
    (change : Change) (key : String) :
    valueAfter elements (changes ++ [change]) key =
      if change.key = key then change.outcome else valueAfter elements changes key := by
  unfold valueAfter
  by_cases same : change.key = key
  · simp [same]
  · simp [same]

/-! ## Values -/

theorem elementAt_eq_some_iff {key : String} {value : Value} :
    elementAt elements key = some value ↔
      ∃ index : Nat, key = toString index ∧ elements[index]? = some (some value) := by
  unfold elementAt
  rw [Option.bind_eq_some_iff]
  constructor
  · rintro ⟨index, found, isValue⟩
    have written := List.find?_some found
    exact ⟨index, (eq_of_beq written).symm, Option.join_eq_some_iff.mp isValue⟩
  · rintro ⟨index, rfl, isValue⟩
    have inside := (List.getElem?_eq_some_iff.mp isValue).1
    -- no other place is written in the same way
    have written : (fun place : Nat => toString place == toString index) = (· == index) := by
      funext place
      rw [Bool.eq_iff_iff, beq_iff_eq, beq_iff_eq]
      exact Number.Decimal.toString_injective.eq_iff
    refine ⟨index, ?_, Option.join_eq_some_iff.mpr isValue⟩
    rw [written, List.find?_range_eq_some]
    simpa [inside] using fun place => Nat.ne_of_lt (b := index)

theorem get?_ofElements (few : elements.length ≤ Key.indexBound) (key : String) :
    (ofElements elements).get? key = elementAt elements key := by
  apply Option.ext
  intro value
  rw [elementAt_eq_some_iff]
  have canonical := Canonical.ofElements few
  constructor
  · intro isValue
    cases shape : Key.ofText key with
    | index index =>
      obtain ⟨below, rfl⟩ := Key.ofText_eq_index_iff.mp shape
      exact ⟨index, rfl, Sparse.mem_ofList_iff.mp (canonical.index_mem_iff.mpr ⟨below, isValue⟩)⟩
    | name name =>
      rw [get?, shape] at isValue
      cases isValue
  · rintro ⟨index, rfl, isElement⟩
    exact (canonical.index_mem_iff.mp (Sparse.mem_ofList_iff.mpr isElement)).2

theorem ofElements?_eq_some_iff :
    ofElements? elements = some object ↔
      elements.length ≤ Key.indexBound ∧ object = ofElements elements := by
  rw [ofElements?_eq, Option.ite_none_right_eq_some, Option.some.injEq, eq_comm (a := object)]

/-- Objects are made of as many elements as there are indices, and never of more. -/
theorem made_iff :
    Made elements object ↔ elements.length ≤ Key.indexBound ∧ object = ofElements elements := by
  constructor
  · intro made
    cases made with
    | empty => exact ⟨Nat.zero_le _, rfl⟩
    | ofElements returned => exact ofElements?_eq_some_iff.mp returned
  · exact fun isObject => .ofElements (ofElements?_eq_some_iff.mpr isObject)

namespace Made

theorem canonical (made : Made elements start) : start.Canonical := by
  obtain ⟨few, rfl⟩ := made_iff.mp made
  exact .ofElements few

theorem get? (made : Made elements start) (key : String) :
    start.get? key = elementAt elements key := by
  obtain ⟨few, rfl⟩ := made_iff.mp made
  exact get?_ofElements few key

theorem named (made : Made elements start) : start.named = [] := by
  obtain ⟨-, rfl⟩ := made_iff.mp made
  rfl

end Made

theorem Canonical.apply (canonical : object.Canonical) (change : Change) :
    (change.apply object).Canonical := by
  cases change with
  | set key value => exact canonical.set key value
  | remove key =>
    rw [Change.apply, takeOut_eq]
    exact canonical.remove key

/-- One change changes what its own key has. -/
theorem Canonical.get?_apply (canonical : object.Canonical) (change : Change) (key : String) :
    (change.apply object).get? key =
      if change.key = key then change.outcome else object.get? key := by
  simp only [eq_comm (a := change.key)]
  cases change with
  | set own value => exact object.get?_set own key value
  | remove own =>
    rw [Change.apply, takeOut_eq]
    exact canonical.get?_remove own key

theorem canonical_afterChanges (canonical : start.Canonical) (changes : List Change) :
    (start.afterChanges changes).Canonical := by
  induction changes generalizing start with
  | nil => exact canonical
  | cons first rest ih => exact ih (canonical.apply first)

theorem get?_afterChanges (made : Made elements start) (changes : List Change) (key : String) :
    (start.afterChanges changes).get? key = valueAfter elements changes key := by
  induction changes using List.reverseRecOn with
  | nil => exact made.get? key
  | append_singleton changes last ih =>
    rw [afterChanges_concat, valueAfter_concat,
      (canonical_afterChanges made.canonical changes).get?_apply, ih]

/-! ## Arrivals -/

/-- A key that is still there arrived when it did. -/
theorem ArrivesAt.concat {key : String} {position : Nat} {change : Change}
    (arrives : ArrivesAt elements changes key position)
    (present : (valueAfter elements (changes ++ [change]) key).isSome) :
    ArrivesAt elements (changes ++ [change]) key position := by
  obtain ⟨value, isSet⟩ := arrives.set
  have inside := (List.getElem?_eq_some_iff.mp isSet).1
  refine ⟨⟨value, ?_⟩, ?_, fun count later within => ?_⟩
  · rw [List.getElem?_append_left inside, isSet]
  · rw [List.take_append_of_le_length (Nat.le_of_lt inside)]
    exact arrives.absent
  · rw [List.length_append, List.length_singleton] at within
    rcases Nat.lt_or_eq_of_le within with early | rfl
    · rw [List.take_append_of_le_length (Nat.le_of_lt_succ early)]
      exact arrives.kept count later (Nat.le_of_lt_succ early)
    · rw [List.take_of_length_le (by simp)]
      exact present

/-- A key that is set while it is absent arrives with the last change. -/
theorem arrivesAt_length {key : String} (value : Value)
    (absent : valueAfter elements changes key = none) :
    ArrivesAt elements (changes ++ [.set key value]) key changes.length := by
  refine ⟨⟨value, by simp⟩, ?_, fun count later within => ?_⟩
  · rw [List.take_left' rfl]
    exact absent
  · rw [List.take_of_length_le (by simpa [Nat.succ_le_iff] using later), valueAfter_concat]
    simp [Change.key, Change.outcome]

theorem ArrivesBefore.concat {key other : String} {change : Change}
    (before : ArrivesBefore elements changes key other)
    (present : (valueAfter elements (changes ++ [change]) key).isSome)
    (present' : (valueAfter elements (changes ++ [change]) other).isSome) :
    ArrivesBefore elements (changes ++ [change]) key other := by
  obtain ⟨position, later, arrives, arrives', lt⟩ := before
  exact ⟨position, later, arrives.concat present, arrives'.concat present', lt⟩

/-- A key that is there and is no element has arrived with some change. -/
theorem exists_arrivesAt {key : String} (noElement : elementAt elements key = none)
    (present : (valueAfter elements changes key).isSome) :
    ∃ position, ArrivesAt elements changes key position := by
  induction changes using List.reverseRecOn with
  | nil =>
    rw [show valueAfter elements [] key = elementAt elements key from rfl, noElement] at present
    cases present
  | append_singleton changes last ih =>
    cases before : valueAfter elements changes key with
    | some value =>
      obtain ⟨position, arrives⟩ := ih (by rw [before]; rfl)
      exact ⟨position, arrives.concat present⟩
    | none =>
      -- only this change can have set the key
      rw [valueAfter_concat, before] at present
      cases last with
      | set own value =>
        obtain rfl : own = key := by
          by_contra different
          simp [Change.key, different] at present
        exact ⟨changes.length, arrivesAt_length value before⟩
      | remove own => simp [Change.outcome] at present

/-- Names that are left and still there are in the order of their arrival. -/
theorem arrivals_concat {names left : List String} {change : Change}
    (ordered : names.Pairwise (ArrivesBefore elements changes)) (remains : left.Sublist names)
    (present : ∀ name ∈ left, (valueAfter elements (changes ++ [change]) name).isSome) :
    left.Pairwise (ArrivesBefore elements (changes ++ [change])) := by
  refine (ordered.sublist remains).imp_of_mem fun member member' before => ?_
  exact before.concat (present _ member) (present _ member')

/-- The names of an object after one more change: some of those before, and one more if a name
was set that was absent. -/
theorem names_apply (object : Object) (change : Change) :
    ∃ left, left.Sublist (object.named.map (·.1)) ∧
      ((change.apply object).named.map (·.1) = left ∨
        ∃ name value, change = .set name value ∧ object.get? name = none ∧
          (change.apply object).named.map (·.1) = left ++ [name]) := by
  cases change with
  | set key value =>
    refine ⟨object.named.map (·.1), List.Sublist.refl _, ?_⟩
    cases shape : Key.ofText key with
    | index index =>
      left
      simp only [Change.apply, Object.set, shape]
    | name name =>
      obtain rfl := Key.eq_of_ofText shape
      have names := Dict.names_put object.named key value
      simp only [Change.apply, Object.set, shape, names]
      split
      · exact .inl rfl
      · next new =>
        refine .inr ⟨key, value, rfl, ?_, rfl⟩
        rw [Object.get?, shape]
        exact Option.not_isSome_iff_eq_none.mp (mt Dict.isSome_get?_iff.mp new)
  | remove key =>
    refine ⟨_, ?_, .inl rfl⟩
    rw [Change.apply, takeOut_eq]
    unfold Object.remove
    split
    · exact List.Sublist.refl _
    · exact List.eraseP_sublist.map _

/-- Every name that is listed is there, and it is no element. -/
theorem Made.present_of_name (made : Made elements start) {name : String}
    (member : name ∈ (start.afterChanges changes).named.map (·.1)) :
    (valueAfter elements changes name).isSome ∧ elementAt elements name = none := by
  have canonical := canonical_afterChanges made.canonical changes
  obtain ⟨⟨name, value⟩, isEntry, rfl⟩ := List.mem_map.mp member
  obtain ⟨apart, isValue⟩ := canonical.name_mem_iff.mp isEntry
  rw [get?_afterChanges made] at isValue
  refine ⟨Option.isSome_iff_exists.mpr ⟨value, isValue⟩, ?_⟩
  cases isElement : elementAt elements name with
  | none => rfl
  | some element =>
    rw [← made.get?] at isElement
    have listed := made.canonical.name_mem_iff.mpr ⟨apart, isElement⟩
    rw [made.named] at listed
    cases listed

/-- The names of an object are in the order of their arrival. -/
theorem names_ordered (made : Made elements start) (changes : List Change) :
    ((start.afterChanges changes).named.map (·.1)).Pairwise (ArrivesBefore elements changes) := by
  induction changes using List.reverseRecOn with
  | nil =>
    rw [show start.afterChanges [] = start from rfl, made.named]
    exact List.Pairwise.nil
  | append_singleton changes last ih =>
    have present : ∀ name ∈ (start.afterChanges (changes ++ [last])).named.map (·.1),
        (valueAfter elements (changes ++ [last]) name).isSome :=
      fun _ member => (made.present_of_name member).1
    rw [afterChanges_concat] at present ⊢
    obtain ⟨left, remains, same | ⟨new, value, rfl, absent, more⟩⟩ := names_apply _ last
    · rw [same] at present ⊢
      exact arrivals_concat ih remains present
    · rw [more] at present ⊢
      rw [get?_afterChanges made] at absent
      have left_present (name : String) (member : name ∈ left) :=
        present name (List.mem_append_left _ member)
      refine List.pairwise_append.mpr
        ⟨arrivals_concat ih remains left_present, List.pairwise_singleton _ _, ?_⟩
      intro name member other isNew
      rw [List.mem_singleton.mp isNew]
      -- the name arrived with an earlier change, the new one arrives with the last
      obtain ⟨before, noElement⟩ := made.present_of_name (remains.subset member)
      obtain ⟨position, arrives⟩ := exists_arrivesAt noElement before
      obtain ⟨_, isSet⟩ := arrives.set
      exact ⟨position, changes.length, arrives.concat (left_present name member),
        arrivesAt_length value absent, (List.getElem?_eq_some_iff.mp isSet).1⟩

end Object

open Object

theorem reflects_afterChanges {elements : List (Option Value)} {start : Object}
    (made : Made elements start) (changes : List Change) :
    Reflects elements changes (start.afterChanges changes) := by
  have canonical := canonical_afterChanges made.canonical changes
  have get := get?_afterChanges made changes
  refine ⟨get, fun key => ?_, fun key => ?_, canonical.nodup_keys, ?_, ?_⟩
  · rw [Object.contains, get]
  · rw [takeOut_eq, get]
  · refine ⟨_, _, rfl, canonical.ascending, ?_, fun index value => ?_, fun name value => ?_⟩
    · exact List.pairwise_map.mp (names_ordered made changes)
    · rw [← get]
      exact canonical.index_mem_iff
    · rw [← get]
      exact canonical.name_mem_iff
  · simpa only [get] using canonical.isLength

/-- After any changes an object is the ordered map that they tell of: one map from texts, in
which a key has what the last change to it says, listed with the indices first and then the
names as they arrived. Its length is one more than the highest index. There is an object of every
list of elements that a count of 32 bits can number. -/
theorem objects_are_ordered_maps (elements : List (Option Value)) :
    (∀ start, Made elements start → ∀ changes,
        Reflects elements changes (start.afterChanges changes)) ∧
      (elements.length < 4294967296 ↔ ∃ start, Made elements start) := by
  refine ⟨fun start made changes => reflects_afterChanges made changes, ?_⟩
  simp only [made_iff, exists_and_left, exists_eq, and_true]
  exact Nat.lt_succ_iff

/-- Changes of keys that look alike: `1` is an index, `01` and `4294967295` are names. -/
def mixedChanges : List Change :=
  [.set "b" (.string "first"), .set "01" .null, .set "1" .null, .set "4294967295" .null,
    .set "b" (.string "second"), .remove "01", .set "01" .undefined]

/-- Setting `b` again keeps its place, and setting `01` after it was taken out moves it to the
end. The length counts the indices alone. -/
theorem mixedChanges_reflected :
    ∃ start, Object.ofElements? [some .null, none] = some start ∧
      Reflects [some .null, none] mixedChanges (start.afterChanges mixedChanges) ∧
      (start.afterChanges mixedChanges).entries.map (·.1) =
        [.index 0, .index 1, .name "b", .name "4294967295", .name "01"] ∧
      (start.afterChanges mixedChanges).length = 2 := by
  have returned : Object.ofElements? [some .null, none] = some ⟨[(0, .null)], []⟩ := rfl
  exact ⟨_, returned, (objects_are_ordered_maps _).1 _ (.ofElements returned) mixedChanges,
    by decide +kernel, by decide +kernel⟩

end Scriptlet
