import Mathlib.Logic.Relation
import Scriptlet.Proofs.Termination

/-!
# Values as text: where a cycle is marked

Writing a value follows its properties through the store and keeps a list of the objects
and arrays that are open. The mark of a cycle stands exactly where one of them comes up
again. Without the list the same recursion ends exactly for the values that hold no cycle,
and then with the same text, at every place where such a value comes up.
-/

namespace Scriptlet

open Relation

/-! ## Texts of objects and arrays -/

theorem elementTexts_congr {text text' : Value → String} {sparse : Sparse Value}
    (same : ∀ entry ∈ sparse, text entry.2 = text' entry.2) (next : Nat) :
    elementTexts text next sparse = elementTexts text' next sparse := by
  induction sparse generalizing next with
  | nil => rfl
  | cons entry rest ih =>
    obtain ⟨index, value⟩ := entry
    have first : text value = text' value := same (index, value) (by simp)
    have others := ih (fun entry inside => same entry (by simp [inside])) (index + 1)
    simp only [elementTexts, first, others]

namespace Object

/-- An object asks only for the texts of its own values. -/
theorem displayObject_congr {text text' : Value → String} {object : Object}
    (same : ∀ entry ∈ object.entries, text entry.2 = text' entry.2) :
    object.displayObject text = object.displayObject text' := by
  unfold displayObject
  split
  · rfl
  · refine congrArg (fun texts => "\x7b " ++ String.intercalate ", " texts ++ " \x7d")
      (List.map_congr_left fun entry inside => ?_)
    show propertyText text entry.1.text entry.2 = propertyText text' entry.1.text entry.2
    rw [propertyText, propertyText, same entry inside]

theorem displayArray_congr {text text' : Value → String} {object : Object}
    (same : ∀ entry ∈ object.entries, text entry.2 = text' entry.2) :
    object.displayArray text = object.displayArray text' := by
  have elements : elementTexts text 0 object.indexed = elementTexts text' 0 object.indexed := by
    apply elementTexts_congr
    intro entry inside
    exact same (.index entry.1, entry.2) (by simp [entries, inside])
  unfold displayArray
  split
  · rfl
  · rw [elements]
    refine congrArg (fun texts => "[ " ++ String.intercalate ", "
      (elementTexts text' 0 object.indexed ++ texts) ++ " ]")
      (List.map_congr_left fun entry inside => ?_)
    show propertyText text entry.1 entry.2 = propertyText text' entry.1 entry.2
    have known := same (.name entry.1, entry.2) (by simp [entries, inside])
    rw [propertyText, propertyText, known]

/-- The text of an object starts with a brace. -/
theorem displayObject_ne_mark (text : Value → String) (object : Object) :
    object.displayObject text ≠ Store.circularMark := by
  intro same
  have letters := congrArg String.toList same
  unfold displayObject Store.circularMark at letters
  split at letters <;> simp at letters

/-- The text of an array is closed at once or goes on with a blank. -/
theorem displayArray_ne_mark (text : Value → String) (object : Object) :
    object.displayArray text ≠ Store.circularMark := by
  intro same
  have letters := congrArg String.toList same
  unfold displayArray Store.circularMark at letters
  split at letters <;> simp at letters

end Object

/-- The text of an object or array, each value inside it written by `text`; nothing for a
value of another kind. -/
def Store.bracketed (store : Store) (text : Value → String) : Value → Option String
  | .object id => some ((store.objectAt id).displayObject text)
  | .array id => some ((store.objectAt id).displayArray text)
  | _ => none

namespace Store

variable {store : Store} {value inner : Value} {id : ObjectId} {path opened : List ObjectId}
  {text text' : Value → String} {nested nested' : ObjectId → Value → String}

theorem bracketed_congr (place : value.object? = some id)
    (same : ∀ entry ∈ (store.objectAt id).entries, text entry.2 = text' entry.2) :
    store.bracketed text value = store.bracketed text' value := by
  cases value with
  | object id =>
    cases place
    exact congrArg some (Object.displayObject_congr same)
  | array id =>
    cases place
    exact congrArg some (Object.displayArray_congr same)
  | _ => cases place

theorem bracketed_ne_mark (text : Value → String) (value : Value) :
    store.bracketed text value ≠ some circularMark := by
  intro same
  cases value with
  | object id => exact Object.displayObject_ne_mark text _ (Option.some.inj same)
  | array id => exact Object.displayArray_ne_mark text _ (Option.some.inj same)
  | _ => cases same

/-! ## One value -/

theorem displayStep_of_plain (plain : value.object? = none) :
    store.displayStep nested path value = store.displayStep nested' opened value := by
  cases value with
  | object id => cases plain
  | array id => cases plain
  | _ => rfl

theorem displayStep_of_open (place : value.object? = some id) (isOpen : id ∈ path) :
    store.displayStep nested path value = circularMark := by
  cases value with
  | object id =>
    cases place
    simp [displayStep, isOpen]
  | array id =>
    cases place
    simp [displayStep, isOpen]
  | _ => cases place

theorem bracketed_of_closed (nested : ObjectId → Value → String)
    (place : value.object? = some id) (closed : id ∉ path) :
    store.bracketed (nested id) value = some (store.displayStep nested path value) := by
  cases value with
  | object id =>
    cases place
    simp [displayStep, bracketed, closed]
  | array id =>
    cases place
    simp [displayStep, bracketed, closed]
  | _ => cases place

theorem displayWithin_eq_step (store : Store) (path : List ObjectId) :
    store.displayWithin path =
      store.displayStep (fun id => store.displayWithin (id :: path)) path :=
  (congrFun ((store.display_settles.unique _).mpr rfl) path).symm

theorem displayWithin_eq_mark_iff (place : value.object? = some id) :
    store.displayWithin path value = circularMark ↔ id ∈ path := by
  rw [displayWithin_eq_step]
  constructor
  · intro marked
    by_contra closed
    have full := store.bracketed_of_closed (fun id => store.displayWithin (id :: path)) place closed
    rw [marked] at full
    exact bracketed_ne_mark _ _ full
  · exact displayStep_of_open place

/-- The text of an object or array that is not open: its values are written with it open. -/
theorem bracketed_displayWithin (place : value.object? = some id) (closed : id ∉ path) :
    store.bracketed (store.displayWithin (id :: path)) value =
      some (store.displayWithin path value) := by
  rw [displayWithin_eq_step store path]
  exact bracketed_of_closed (fun id => store.displayWithin (id :: path)) place closed

/-! ## Occurrences and cycles -/

/-- The values that come up as `value` is written, each with the objects and arrays that
are open then, the innermost first. The values of an open object do not come up again. -/
inductive Occurs (store : Store) (value : Value) : List ObjectId → Value → Prop where
  | root : Occurs store value [] value
  | inside {opened : List ObjectId} {outer : Value} {id : ObjectId} {entry : Key × Value}
      (occurs : Occurs store value opened outer) (place : outer.object? = some id)
      (closed : id ∉ opened) (property : entry ∈ (store.objectAt id).entries) :
      Occurs store value (id :: opened) entry.2

/-- Whether an object or array is the value of a property of another one. -/
def Embeds (store : Store) (outer inner : ObjectId) : Prop :=
  ∃ entry ∈ (store.objectAt outer).entries, entry.2.object? = some inner

/-- Whether properties lead from a value to an object or array. -/
def Attains (store : Store) (value : Value) (id : ObjectId) : Prop :=
  ∃ root, value.object? = some root ∧ ReflTransGen store.Embeds root id

/-- Whether no object or array that a value leads to leads back to itself. -/
def Acyclic (store : Store) (value : Value) : Prop :=
  ∀ id, store.Attains value id → ¬ TransGen store.Embeds id id

/-- What a property leads to, its object leads to as well. -/
theorem Attains.outward {entry : Key × Value} {target : ObjectId}
    (place : value.object? = some id) (property : entry ∈ (store.objectAt id).entries)
    (attains : store.Attains entry.2 target) :
    store.Attains value target ∧ TransGen store.Embeds id target := by
  obtain ⟨root, isRoot, leads⟩ := attains
  have embeds : store.Embeds id root := ⟨entry, property, isRoot⟩
  exact ⟨⟨id, place, leads.head embeds⟩, TransGen.head' embeds leads⟩

theorem Acyclic.inside {entry : Key × Value} (acyclic : store.Acyclic value)
    (place : value.object? = some id) (property : entry ∈ (store.objectAt id).entries) :
    store.Acyclic entry.2 :=
  fun other attains => acyclic other (attains.outward place property).1

/-- If a value without cycles leads to nothing that is open, nor do its properties while it
is open itself. -/
theorem Acyclic.apart_inside {entry : Key × Value} (acyclic : store.Acyclic value)
    (place : value.object? = some id) (property : entry ∈ (store.objectAt id).entries)
    (apart : ∀ other ∈ path, ¬ store.Attains value other) :
    ∀ other ∈ id :: path, ¬ store.Attains entry.2 other := by
  intro other isOpen attains
  obtain ⟨fromValue, cycle⟩ := attains.outward place property
  rcases List.mem_cons.mp isOpen with rfl | before
  · exact acyclic other ⟨other, place, .refl⟩ cycle
  · exact apart other before fromValue

/-- An open object leads to every value that comes up inside it. -/
theorem Occurs.leads (occurs : store.Occurs value opened inner) {outer target : ObjectId}
    (isOpen : outer ∈ opened) (place : inner.object? = some target) :
    TransGen store.Embeds outer target := by
  induction occurs generalizing target with
  | root => cases isOpen
  | @inside opened middle id entry occurs isMiddle closed property ih =>
    have embeds : store.Embeds id target := ⟨entry, property, place⟩
    rcases List.mem_cons.mp isOpen with rfl | before
    · exact .single embeds
    · exact (ih before isMiddle).tail embeds

/-- A value without cycles does not lead back to an object that is open. -/
theorem Occurs.not_attains (occurs : store.Occurs value opened inner)
    (acyclic : store.Acyclic inner) (isOpen : id ∈ opened) : ¬ store.Attains inner id := by
  rintro ⟨root, isRoot, leads⟩
  have back : TransGen store.Embeds id root := occurs.leads isOpen isRoot
  exact acyclic root ⟨root, isRoot, .refl⟩ (TransGen.trans_right leads back)

/-! ## Writing without a list of open objects -/

/-- The recursion that writes a value and keeps no list: it writes every object and array
in full. It has a text for a value only if it ends. -/
inductive Writes (store : Store) : Value → String → Prop where
  | value {value : Value} {text : Value → String}
      (inner : ∀ id, value.object? = some id →
        ∀ entry ∈ (store.objectAt id).entries, Writes store entry.2 (text entry.2)) :
      Writes store value (store.displayStep (fun _ => text) [] value)

/-- Only values without cycles can be written so. -/
theorem Writes.acyclic {written : String} (writes : store.Writes value written) :
    store.Acyclic value := by
  induction writes with
  | @value value text inner ih =>
    rintro id ⟨root, isRoot, leads⟩ cycle
    -- a cycle goes on from `id` either at the root or inside one of its properties
    have onward : ∃ next, store.Embeds root next ∧ ReflTransGen store.Embeds next id := by
      rcases leads.cases_head with rfl | onward
      · exact TransGen.head'_iff.mp cycle
      · exact onward
    obtain ⟨next, ⟨entry, property, isNext⟩, rest⟩ := onward
    exact ih root isRoot entry property id ⟨next, isNext, rest⟩ cycle

/-- One round of the recursion around the texts of the properties. -/
theorem displayStep_eq_displayWithin (place : value.object? = some id) (closed : id ∉ path)
    (same : ∀ entry ∈ (store.objectAt id).entries,
      text entry.2 = store.displayWithin (id :: path) entry.2) :
    store.displayStep (fun _ => text) [] value = store.displayWithin path value := by
  apply Option.some.inj
  rw [← bracketed_displayWithin place closed,
    ← bracketed_of_closed (fun _ => text) place List.not_mem_nil]
  exact bracketed_congr place same

/-- While nothing is open that a value leads to, the list of open objects is not noticed. -/
theorem Writes.eq_displayWithin {written : String} (writes : store.Writes value written)
    (apart : ∀ id ∈ path, ¬ store.Attains value id) :
    written = store.displayWithin path value := by
  have acyclic := writes.acyclic
  induction writes generalizing path with
  | @value value text inner ih =>
    cases place : value.object? with
    | none =>
      rw [displayWithin_eq_step]
      exact displayStep_of_plain place
    | some id =>
      have closed : id ∉ path := fun isOpen => apart id isOpen ⟨id, place, .refl⟩
      apply displayStep_eq_displayWithin place closed
      intro entry property
      exact ih id place entry property (acyclic.apart_inside place property apart)
        (acyclic.inside place property)

/-- Every value without cycles can be written. The induction is on the number of places
that are not open. -/
theorem Acyclic.writes (acyclic : store.Acyclic value)
    (apart : ∀ id ∈ path, ¬ store.Attains value id) :
    store.Writes value (store.displayWithin path value) := by
  induction isCount : unopened store.places path using Nat.strong_induction_on
    generalizing path value with
  | _ count ih =>
    cases place : value.object? with
    | none =>
      have same : store.displayWithin path value = store.displayStep (fun _ _ => "") [] value := by
        rw [displayWithin_eq_step]
        exact displayStep_of_plain place
      rw [same]
      apply Writes.value
      intro id isPlace
      rw [place] at isPlace
      cases isPlace
    | some id =>
      have closed : id ∉ path := fun isOpen => apart id isOpen ⟨id, place, .refl⟩
      rw [← displayStep_eq_displayWithin place closed fun _ _ => rfl]
      apply Writes.value
      intro other isPlace entry property
      obtain rfl : id = other := Option.some.inj (place.symm.trans isPlace)
      -- a place outside the store has no properties, so this one is inside
      have inside : id ∈ store.places := by
        by_contra outside
        rw [objectAt_outside outside] at property
        cases property
      refine ih _ ?_ (acyclic.inside place property) (acyclic.apart_inside place property apart) rfl
      rw [← isCount]
      exact unopened_cons_lt inside closed

/-- Where a value comes up, the recursion without a list writes the text that stands there,
and it ends exactly if the value has no cycles. -/
theorem Occurs.writes_iff (occurs : store.Occurs value opened inner) {written : String} :
    store.Writes inner written ↔
      store.Acyclic inner ∧ written = store.displayWithin opened inner := by
  constructor
  · intro writes
    have apart : ∀ id ∈ opened, ¬ store.Attains inner id := fun _ isOpen =>
      occurs.not_attains writes.acyclic isOpen
    exact ⟨writes.acyclic, writes.eq_displayWithin apart⟩
  · rintro ⟨acyclic, rfl⟩
    exact acyclic.writes fun _ isOpen => occurs.not_attains acyclic isOpen

end Store

/-! ## The text of a value -/

/-- Writing a value ends, whatever its store holds. An object or array is marked exactly
where it comes up while it is open, and is written in full elsewhere. A value without
cycles has, at every place where it comes up, the text that the recursion without a list
of open objects gives, and that recursion ends for no other value. -/
theorem display_marks_cycles (store : Store) (value : Value) :
    Settles (fun (i : List ObjectId × Value) text => text i.1 i.2)
        (fun i => unopened store.places i.1) store.displayRecursion store.displayWithin ∧
      (∀ text, store.display (.string text) = text) ∧
      (value.isText = false →
        store.display value = store.displayWithin [] value ∧
          (store.Acyclic value →
            ∀ written, store.Writes value written ↔ written = store.display value)) ∧
      ∀ opened inner, store.Occurs value opened inner →
        (∀ id, inner.object? = some id →
          (store.displayWithin opened inner = Store.circularMark ↔ id ∈ opened) ∧
            (id ∉ opened →
              store.bracketed (store.displayWithin (id :: opened)) inner =
                some (store.displayWithin opened inner))) ∧
        ∀ written, store.Writes inner written ↔
          store.Acyclic inner ∧ written = store.displayWithin opened inner := by
  refine ⟨store.display_settles, fun _ => rfl, fun other => ?_, fun opened inner occurs => ?_⟩
  · refine ⟨store.display_eq_within other, fun acyclic written => ?_⟩
    rw [Store.Occurs.root.writes_iff, store.display_eq_within other]
    exact and_iff_right acyclic
  · refine ⟨fun id place => ?_, fun written => occurs.writes_iff⟩
    exact ⟨Store.displayWithin_eq_mark_iff place, Store.bracketed_displayWithin place⟩

/-- An object that holds one array twice, and itself. -/
def sharing : Store :=
  ⟨#[], #[⟨[], [("a", .array 1), ("b", .array 1), ("c", .object 0)]⟩,
    ⟨[(0, .boolean true)], []⟩], 0⟩

theorem sharing_acyclic : sharing.Acyclic (.array 1) := by
  have ends : ∀ id, ¬ sharing.Embeds 1 id := by
    rintro id ⟨entry, property, place⟩
    have only : entry = (.index 0, .boolean true) := by
      simpa [sharing, Store.objectAt, Object.entries] using property
    rw [only] at place
    cases place
  rintro id ⟨root, isRoot, leads⟩ cycle
  cases isRoot
  rcases leads.cases_head with rfl | ⟨next, embeds, -⟩
  · obtain ⟨next, embeds, -⟩ := TransGen.head'_iff.mp cycle
    exact ends next embeds
  · exact ends next embeds

/-- The array is written in full both times, the object inside itself is marked. -/
theorem sharing_displayed :
    sharing.display (.object 0) = "\x7b a: [ true ], b: [ true ], c: [Circular] \x7d" ∧
      sharing.displayWithin [0] (.object 0) = Store.circularMark ∧
      sharing.Writes (.array 1) (sharing.displayWithin [0] (.array 1)) ∧
      sharing.Writes (.array 1) (sharing.display (.array 1)) := by
  have inside : ∀ entry ∈ (sharing.objectAt 0).entries, sharing.Occurs (.object 0) [0] entry.2 :=
    fun entry property => .inside .root rfl List.not_mem_nil property
  refine ⟨by decide +kernel, ?_, ?_, ?_⟩
  · have occurs := inside (.name "c", .object 0) (.tail _ (.tail _ (.head _)))
    exact (((display_marks_cycles sharing (.object 0)).2.2.2 _ _ occurs).1 0 rfl).1.mpr (.head _)
  · have occurs := inside (.name "a", .array 1) (.head _)
    exact (((display_marks_cycles sharing (.object 0)).2.2.2 _ _ occurs).2 _).mpr
      ⟨sharing_acyclic, rfl⟩
  · exact (((display_marks_cycles sharing (.array 1)).2.2.1 rfl).2 sharing_acyclic _).mpr rfl

end Scriptlet
