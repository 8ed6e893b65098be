import Mathlib.Data.List.Perm.Subperm
import Scriptlet.Proofs.History
import Scriptlet.Proofs.Termination

/-!
# Structural equality

Two values are alike, as far as a relation says so of the values of their properties. Comparing
finds out whether some relation has the two values among its pairs, and only pairs that are
alike as far as it says so itself: the largest such relation is equality. Objects may hold each
other in circles. A pair that is met again while it is being compared is an assumption of the
comparison, and an assumption goes away when its own pair is done.
-/

namespace Scriptlet

open Float.Model (UnpackedFloat)

/-! ## Numbers -/

namespace Number

theorem compare_swap (x y : UnpackedFloat) : x.compare y = (y.compare x).map Ordering.swap := by
  cases x with
  | notANumber => cases y <;> rfl
  | infinity sign =>
    cases y with
    | infinity sign' => cases sign <;> cases sign' <;> rfl
    | _ => cases sign <;> rfl
  | zero sign =>
    cases y with
    | infinity sign' | finite sign' => cases sign' <;> rfl
    | _ => rfl
  | finite sign mantissa exponent =>
    cases y with
    | infinity sign' => cases sign <;> cases sign' <;> rfl
    | finite sign' mantissa' exponent' =>
      have swapped : (compare exponent exponent').then (compare mantissa mantissa') =
          ((compare exponent' exponent).then (compare mantissa' mantissa)).swap := by
        rw [Ordering.swap_then, ← Std.OrientedCmp.eq_swap, ← Std.OrientedCmp.eq_swap]
      cases sign with
      | positive =>
        cases sign' with
        | positive => exact congrArg some swapped
        | negative => rfl
      | negative =>
        cases sign' with
        | positive => rfl
        | negative => exact congrArg (fun order : Ordering => some order.swap) swapped
    | _ => cases sign <;> rfl

/-- A number that is none is equal to nothing, on either side. -/
theorem beq_comm (x y : Float) : (x == y) = (y == x) := by
  show x.toModel.unpack.beq y.toModel.unpack = y.toModel.unpack.beq x.toModel.unpack
  unfold UnpackedFloat.beq
  rw [compare_swap]
  cases y.toModel.unpack.compare x.toModel.unpack with
  | none => rfl
  | some order => cases order <;> rfl

end Number

/-! ## Objects that correspond -/

/-- Whether two objects have the same keys, with related values under each of them. -/
structure Object.Corresponds (related : Value → Value → Prop) (left right : Object) : Prop where
  keys : ∀ key, (left.getKey? key).isSome = true ↔ (right.getKey? key).isSome = true
  values : ∀ key value other, left.getKey? key = some value → right.getKey? key = some other →
    related value other

namespace Object

variable {related related' : Value → Value → Prop} {left right : Object}

theorem Corresponds.mono (le : ∀ value other, related value other → related' value other)
    (corresponds : left.Corresponds related right) : left.Corresponds related' right :=
  ⟨corresponds.keys, fun key value other isValue isOther =>
    le value other (corresponds.values key value other isValue isOther)⟩

theorem Corresponds.swap (corresponds : left.Corresponds related right) :
    right.Corresponds (fun value other => related other value) left :=
  ⟨fun key => (corresponds.keys key).symm, fun key value other isValue isOther =>
    corresponds.values key other value isOther isValue⟩

/-- Matching counts the keys of both objects and looks up those of the left one only. As each
key is there once, that leaves no key of the right one out. -/
theorem matches_iff {equal : Value → Value → Bool} (first : left.Canonical)
    (second : right.Canonical) :
    left.matches equal right = true ↔
      left.Corresponds (fun value other => equal value other = true) right := by
  unfold Object.matches
  rw [Bool.and_eq_true, beq_iff_eq, List.all_eq_true]
  constructor
  · rintro ⟨sameLength, each⟩
    have found {key : Key} {value : Value} (isValue : left.getKey? key = some value) :
        ∃ other, right.getKey? key = some other ∧ equal value other = true := by
      have here := each (key, value) (first.getKey?_eq_some_iff.mp isValue)
      dsimp only at here
      cases isOther : right.getKey? key with
      | none =>
        rw [isOther] at here
        cases here
      | some other =>
        rw [isOther] at here
        exact ⟨other, rfl, here⟩
    have inside : left.entries.map (·.1) ⊆ right.entries.map (·.1) := by
      intro key member
      obtain ⟨value, isValue⟩ := Option.isSome_iff_exists.mp (first.isSome_getKey?_iff.mpr member)
      obtain ⟨other, isOther, -⟩ := found isValue
      exact second.isSome_getKey?_iff.mp (Option.isSome_iff_exists.mpr ⟨other, isOther⟩)
    have perm : (left.entries.map (·.1)).Perm (right.entries.map (·.1)) := by
      refine (List.subperm_of_subset first.nodup_keys inside).perm_of_length_le ?_
      simp [sameLength]
    refine ⟨fun key => ?_, fun key value other isValue isOther => ?_⟩
    · rw [first.isSome_getKey?_iff, second.isSome_getKey?_iff, perm.mem_iff]
    · obtain ⟨other', isOther', holds⟩ := found isValue
      rw [isOther] at isOther'
      cases isOther'
      exact holds
  · intro corresponds
    have perm : (left.entries.map (·.1)).Perm (right.entries.map (·.1)) := by
      refine (List.perm_ext_iff_of_nodup first.nodup_keys second.nodup_keys).mpr fun key => ?_
      rw [← first.isSome_getKey?_iff, ← second.isSome_getKey?_iff, corresponds.keys]
    refine ⟨by simpa using perm.length_eq, fun entry member => ?_⟩
    obtain ⟨key, value⟩ := entry
    have isValue := first.getKey?_eq_some_iff.mpr member
    have bound := (corresponds.keys key).mp (Option.isSome_iff_exists.mpr ⟨value, isValue⟩)
    obtain ⟨other, isOther⟩ := Option.isSome_iff_exists.mp bound
    simp only [isOther]
    exact corresponds.values key value other isValue isOther

/-- An object without keys corresponds only to such objects, and then nothing is asked of
values. -/
theorem Corresponds.of_empty (corresponds : left.Corresponds related right)
    (empty : left = .empty ∨ right = .empty) : left.Corresponds related' right := by
  refine ⟨corresponds.keys, fun key value other isValue isOther => ?_⟩
  rcases empty with rfl | rfl
  · cases key <;> cases isValue
  · cases key <;> cases isOther

end Object

/-! ## Values that are alike -/

/-- What is asked of two values that are equal, where `related` is asked of the values of their
properties. -/
inductive Store.Alike (store : Store) (related : Value → Value → Prop) (left right : Value) :
    Prop where
  /-- Both are the same object, or the same array. -/
  | same (id : ObjectId) (places : left.places? right = some (id, id))
  /-- Both are objects, or both arrays, and they have the same keys with related values. -/
  | properties (pair : ObjectId × ObjectId) (places : left.places? right = some pair)
      (corresponds : (store.objectAt pair.1).Corresponds related (store.objectAt pair.2))
  | nullish (first : left.isNullish = true) (second : right.isNullish = true)
  /-- Both are numbers, booleans or texts, but not both texts, and stand for equal numbers. -/
  | numbers (first : (left.isNumeric || left.isText) = true)
      (second : (right.isNumeric || right.isText) = true)
      (apart : (left.isText && right.isText) = false)
      (equal : (left.comparedNumber == right.comparedNumber) = true)
  | strict (equal : left.strictEquals right = true)

namespace Value

variable {left right : Value}

theorem places?_swap : right.places? left = (left.places? right).map Prod.swap := by
  cases left <;> cases right <;> rfl

theorem strictEquals_swap (left right : Value) :
    left.strictEquals right = right.strictEquals left := by
  cases left with
  | number x =>
    cases right with
    | number y => exact Number.beq_comm x y
    | _ => rfl
  | string x | boolean x | object x | array x | function x =>
    cases right <;> first | rfl | exact Bool.beq_comm
  | null | undefined => cases right <;> rfl

theorem eq_of_strictEquals {pair : ObjectId × ObjectId} (places : left.places? right = some pair)
    (equal : left.strictEquals right = true) : pair.1 = pair.2 := by
  cases left with
  | object x | array x =>
    cases right <;> cases places
    exact eq_of_beq equal
  | _ => cases right <;> cases places

/-- What is an object or array is nothing else. -/
theorem plain_of_places? {pair : ObjectId × ObjectId} (places : left.places? right = some pair) :
    left.isNullish = false ∧ left.isNumeric = false ∧ left.isText = false := by
  cases left with
  | object x | array x => exact ⟨rfl, rfl, rfl⟩
  | _ => cases right <;> cases places

theorem primitiveEquals_of_strictEquals (apart : left.places? right = none)
    (equal : left.strictEquals right = true) : left.primitiveEquals right = true := by
  cases left with
  | number x | string x | function x => cases right <;> first | exact equal | cases equal
  | boolean x =>
    cases right with
    | boolean y =>
      obtain rfl := eq_of_beq equal
      cases x <;> decide
    | _ => cases equal
  | null | undefined => cases right <;> first | rfl | cases equal
  | object x =>
    cases right with
    | object y => cases apart
    | _ => cases equal
  | array x =>
    cases right with
    | array y => cases apart
    | _ => cases equal

/-- Which values are compared by the numbers that they stand for. -/
theorem compared_iff :
    (left.isNumeric && (right.isNumeric || right.isText) || left.isText && right.isNumeric) = true ↔
      (left.isNumeric || left.isText) = true ∧ (right.isNumeric || right.isText) = true ∧
        (left.isText && right.isText) = false := by
  cases left <;> cases right <;> simp [isNumeric, isText]

end Value

namespace Store

variable {store : Store} {related related' : Value → Value → Prop} {left right : Value}

theorem Alike.mono (le : ∀ value other, related value other → related' value other)
    (alike : store.Alike related left right) : store.Alike related' left right := by
  cases alike with
  | same id places => exact .same id places
  | properties pair places corresponds => exact .properties pair places (corresponds.mono le)
  | nullish first second => exact .nullish first second
  | numbers first second apart equal => exact .numbers first second apart equal
  | strict equal => exact .strict equal

theorem Alike.swap (alike : store.Alike related left right) :
    store.Alike (fun value other => related other value) right left := by
  cases alike with
  | same id places => exact .same id (by rw [Value.places?_swap, places]; rfl)
  | properties pair places corresponds =>
    exact .properties pair.swap (by rw [Value.places?_swap, places]; rfl) corresponds.swap
  | nullish first second => exact .nullish second first
  | numbers first second apart equal =>
    exact .numbers second first (by rw [Bool.and_comm, apart]) (by rw [Number.beq_comm, equal])
  | strict equal => exact .strict (by rw [Value.strictEquals_swap, equal])

/-- Values that are not both objects and not both arrays are compared by themselves. -/
theorem alike_iff_primitiveEquals (apart : left.places? right = none) :
    store.Alike related left right ↔ left.primitiveEquals right = true := by
  constructor
  · intro alike
    cases alike with
    | same id places => simp [places] at apart
    | properties pair places => simp [places] at apart
    | nullish first second => simp [Value.primitiveEquals, first, second]
    | numbers first second different equal =>
      unfold Value.primitiveEquals
      split
      · rfl
      · rw [if_pos (Value.compared_iff.mpr ⟨first, second, different⟩)]
        exact equal
    | strict equal => exact Value.primitiveEquals_of_strictEquals apart equal
  · intro equal
    unfold Value.primitiveEquals at equal
    split at equal
    · next both =>
      obtain ⟨first, second⟩ := (Bool.and_eq_true _ _).mp both
      exact .nullish first second
    · split at equal
      · next compared =>
        obtain ⟨first, second, different⟩ := Value.compared_iff.mp compared
        exact .numbers first second different equal
      · exact .strict equal

/-- Two objects, or two arrays, are the same or correspond. -/
theorem alike_iff_corresponds {pair : ObjectId × ObjectId}
    (places : left.places? right = some pair) :
    store.Alike related left right ↔
      pair.1 = pair.2 ∨
        (store.objectAt pair.1).Corresponds related (store.objectAt pair.2) := by
  obtain ⟨notNullish, notNumeric, notText⟩ := Value.plain_of_places? places
  constructor
  · intro alike
    cases alike with
    | same id isSame =>
      rw [places] at isSame
      cases isSame
      exact .inl rfl
    | properties pair' isPair corresponds =>
      rw [places] at isPair
      cases isPair
      exact .inr corresponds
    | nullish first => simp [notNullish] at first
    | numbers first => simp [notNumeric, notText] at first
    | strict equal => exact .inl (Value.eq_of_strictEquals places equal)
  · rintro (same | corresponds)
    · obtain ⟨id, other⟩ := pair
      obtain rfl : id = other := same
      exact .same id places
    · exact .properties pair places corresponds

/-! ## Equality under assumptions -/

/-- Whether two values are in one of the pairs of a path. -/
def Assumed (path : List (ObjectId × ObjectId)) (left right : Value) : Prop :=
  ∃ pair ∈ path, left.places? right = some pair

/-- Whether two values are equal if the pairs of a path are: some relation relates them, and
whatever it relates is alike or in one of these pairs. -/
def EqualUnder (store : Store) (path : List (ObjectId × ObjectId)) (left right : Value) : Prop :=
  ∃ related : Value → Value → Prop, related left right ∧
    ∀ value other, related value other →
      Assumed path value other ∨ store.Alike related value other

variable {path : List (ObjectId × ObjectId)} {pair : ObjectId × ObjectId}

theorem equalUnder_iff :
    store.EqualUnder path left right ↔
      Assumed path left right ∨ store.Alike (store.EqualUnder path) left right := by
  have unfolds {value other : Value} (equal : store.EqualUnder path value other) :
      Assumed path value other ∨ store.Alike (store.EqualUnder path) value other := by
    obtain ⟨related, relates, closed⟩ := equal
    exact (closed value other relates).imp_right
      (Alike.mono fun _ _ inner => ⟨related, inner, closed⟩)
  refine ⟨unfolds, fun alike => ⟨fun value other => Assumed path value other ∨
    store.Alike (store.EqualUnder path) value other, alike, fun value other relates => ?_⟩⟩
  exact relates.imp_right (Alike.mono fun _ _ => unfolds)

theorem EqualUnder.weaken (pair : ObjectId × ObjectId) (equal : store.EqualUnder path left right) :
    store.EqualUnder (pair :: path) left right := by
  obtain ⟨related, relates, closed⟩ := equal
  refine ⟨related, relates, fun value other inner => (closed value other inner).imp_left ?_⟩
  rintro ⟨known, member, places⟩
  exact ⟨known, List.mem_cons_of_mem pair member, places⟩

/-- An assumption can be dropped if it follows from itself. Its pair is then related by what
was equal under the assumption, with the pair added. -/
theorem equalUnder_of_corresponds (places : left.places? right = some pair)
    (corresponds : (store.objectAt pair.1).Corresponds (store.EqualUnder (pair :: path))
      (store.objectAt pair.2)) :
    store.EqualUnder path left right := by
  let related (value other : Value) : Prop :=
    value.places? other = some pair ∨ store.EqualUnder (pair :: path) value other
  have here {value other : Value} (isPair : value.places? other = some pair) :
      store.Alike related value other :=
    .properties pair isPair (corresponds.mono fun _ _ => .inr)
  refine ⟨related, .inl places, fun value other relates => ?_⟩
  rcases relates with isPair | equal
  · exact .inr (here isPair)
  · rcases equalUnder_iff.mp equal with ⟨known, member, isKnown⟩ | alike
    · rcases List.mem_cons.mp member with rfl | member
      · exact .inr (here isKnown)
      · exact .inl ⟨known, member, isKnown⟩
    · exact .inr (alike.mono fun _ _ => .inr)

theorem EqualUnder.swap (equal : store.EqualUnder [] left right) :
    store.EqualUnder [] right left := by
  obtain ⟨related, relates, closed⟩ := equal
  refine ⟨fun value other => related other value, relates, fun value other inner => ?_⟩
  rcases closed other value inner with ⟨_, member, _⟩ | alike
  · cases member
  · exact .inr alike.swap

/-! ## Comparing -/

theorem equalWithin_eq_step (store : Store) (path : List (ObjectId × ObjectId)) :
    store.equalWithin path =
      store.looseEqualsStep (fun pair => store.equalWithin (pair :: path)) path :=
  (congrFun ((store.equality_settles.unique _).mpr rfl) path).symm

/-- A place outside the store is empty, so values matter only for pairs inside it. -/
theorem corresponds_congr
    (same : pair ∈ store.places ×ˢ store.places →
      ∀ value other, related value other ↔ related' value other) :
    (store.objectAt pair.1).Corresponds related (store.objectAt pair.2) ↔
      (store.objectAt pair.1).Corresponds related' (store.objectAt pair.2) := by
  by_cases inside : pair ∈ store.places ×ˢ store.places
  · exact ⟨.mono fun value other => (same inside value other).mp,
      .mono fun value other => (same inside value other).mpr⟩
  · rw [Finset.mem_product, not_and_or] at inside
    have empty := inside.imp objectAt_outside objectAt_outside
    exact ⟨fun corresponds => corresponds.of_empty empty,
      fun corresponds => corresponds.of_empty empty⟩

/-- Comparing while the pairs of a path are open decides equality under the assumption of these
pairs. The induction is on the number of pairs of the store that are not open. -/
theorem Canonical.equalWithin_iff (canonical : store.Canonical) :
    store.equalWithin path left right = true ↔ store.EqualUnder path left right := by
  induction isCount : unopened (store.places ×ˢ store.places) path using Nat.strong_induction_on
    generalizing path left right with
  | _ count ih =>
    rw [equalWithin_eq_step, looseEqualsStep]
    cases places : left.places? right with
    | none =>
      have free : ¬ Assumed path left right := by
        rintro ⟨_, _, isPair⟩
        rw [places] at isPair
        cases isPair
      rw [equalUnder_iff, alike_iff_primitiveEquals places]
      simp only [free, false_or]
    | some pair =>
      dsimp only
      split
      · next known =>
        refine iff_of_true rfl (equalUnder_iff.mpr ?_)
        rcases (Bool.or_eq_true _ _).mp known with same | member
        · exact .inr ((alike_iff_corresponds places).mpr (.inl (of_decide_eq_true same)))
        · exact .inl ⟨pair, List.contains_iff_mem.mp member, places⟩
      · next unknown =>
        obtain ⟨different, closed⟩ : pair.1 ≠ pair.2 ∧ pair ∉ path := by
          simpa using unknown
        have free : ¬ Assumed path left right := by
          rintro ⟨_, member, isPair⟩
          rw [places] at isPair
          cases isPair
          exact closed member
        -- Inside, one more pair is open.
        have inner : (store.objectAt pair.1).Corresponds
              (fun value other => store.equalWithin (pair :: path) value other = true)
              (store.objectAt pair.2) ↔
            (store.objectAt pair.1).Corresponds (store.EqualUnder (pair :: path))
              (store.objectAt pair.2) :=
          corresponds_congr fun inside _ _ =>
            ih _ (isCount ▸ unopened_cons_lt inside closed) rfl
        rw [Object.matches_iff (canonical _) (canonical _), inner]
        refine ⟨equalUnder_of_corresponds places, fun equal => ?_⟩
        rcases equalUnder_iff.mp equal with assumed | alike
        · exact absurd assumed free
        · rcases (alike_iff_corresponds places).mp alike with same | corresponds
          · exact absurd same different
          · exact corresponds.mono fun _ _ => EqualUnder.weaken pair

/-- Nothing is assumed at the start. -/
theorem equalUnder_nil_iff :
    store.EqualUnder [] left right ↔
      ∃ related : Value → Value → Prop, related left right ∧
        ∀ value other, related value other → store.Alike related value other := by
  have free (value other : Value) : ¬ Assumed [] value other := by
    rintro ⟨_, member, _⟩
    cases member
  simp only [EqualUnder, free, false_or]

end Store

/-- Comparing ends, and finds two values equal exactly if some relation has them among its pairs
and relates only values that are alike as far as it says so; so it does not matter which of the
values comes first. Objects and arrays may be shared and hold each other in circles. That they
are canonical is so after any scripts. -/
theorem equality_is_largest :
    (∀ store : Store, store.Canonical →
      (Settles
          (fun (i : List (ObjectId × ObjectId) × Value × Value) equal => equal i.1 i.2.1 i.2.2)
          (fun i => unopened (store.places ×ˢ store.places) i.1) store.equalityRecursion
          store.equalWithin ∧
        ∀ left right : Value, store.looseEquals left right = store.equalWithin [] left right) ∧
      (∀ left right : Value, store.looseEquals left right = true ↔
        ∃ related : Value → Value → Prop, related left right ∧
          ∀ value other, related value other → store.Alike related value other) ∧
      ∀ left right : Value, store.looseEquals left right = store.looseEquals right left) ∧
    ∀ (limit : Nat) (sink : Sink) (codes : List String),
      ((Engine.new limit sink).afterAll codes).machine.store.Canonical := by
  refine ⟨fun store canonical => ?_, fun limit sink codes => ?_⟩
  · have decides (left right : Value) :
        store.looseEquals left right = true ↔ store.EqualUnder [] left right := by
      rw [store.looseEquals_eq_within, canonical.equalWithin_iff]
    refine ⟨⟨store.equality_settles, store.looseEquals_eq_within⟩, fun left right => ?_,
      fun left right => ?_⟩
    · rw [decides, Store.equalUnder_nil_iff]
    · rw [Bool.eq_iff_iff, decides, decides]
      exact ⟨.swap, .swap⟩
  · have settled : (Engine.new limit sink).machine.store.Settled _ := Engine.initialStore_settled
    obtain ⟨after, isSettled⟩ := Engine.afterAll_settled settled rfl codes
    exact isSettled.canonicalStore

/-- Two objects that hold each other. -/
def mutualHolding : Store :=
  (Store.empty.addObject (Object.empty.set "a" (.object 1))).addObject
    (Object.empty.set "a" (.object 0))

/-- They are equal, on either side, and a relation says so. -/
theorem mutualHolding_equal :
    mutualHolding.Canonical ∧ mutualHolding.looseEquals (.object 0) (.object 1) = true ∧
      mutualHolding.looseEquals (.object 1) (.object 0) = true ∧
      ∃ related : Value → Value → Prop, related (.object 0) (.object 1) ∧
        ∀ value other, related value other → mutualHolding.Alike related value other := by
  have canonical : mutualHolding.Canonical := by
    intro id
    match id with
    | 0 => exact Object.Canonical.empty.set "a" _
    | 1 => exact Object.Canonical.empty.set "a" _
    | _ + 2 => exact .empty
  have equal : mutualHolding.looseEquals (.object 0) (.object 1) = true := by decide +kernel
  obtain ⟨-, largest, symmetric⟩ := equality_is_largest.1 mutualHolding canonical
  exact ⟨canonical, equal, symmetric _ _ ▸ equal, (largest _ _).mp equal⟩

end Scriptlet
