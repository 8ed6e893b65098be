import Scriptlet.Proofs.Literals
import Scriptlet.Proofs.OrderedMap

/-!
# Object literals

The properties of an object literal give pairs of a key and a value, from left to right. A spread
gives the entries that an object or array has at that moment, in their own order; other values
give no pairs. The new object has the last value of each key, at the place of its first pair:
indices come first, in ascending order, then the names.

* `Pairs`: the pairs that properties give;
* `evalProperties_eq_ok_iff`: an object literal sets one pair after the other;
* `Canonical.merge_empty`: an object literal with one spread is a copy.
-/

namespace Scriptlet

open Eval

/-! ## The pairs of properties -/

/-- The pairs that a value gives where it is spread in an object literal: the entries of an object
or array, in their order. -/
def Store.pairsOf (store : Store) : Value → List (String × Value)
  | .object id | .array id =>
    (store.objectAt id).entries.map fun (key, value) => (key.text, value)
  | _ => []

namespace Eval

/-- The key that the name of a property means. -/
inductive Means (call : Call) (scope : FrameId) :
    Machine → PropertyName → String → Machine → Prop where
  | identifier (machine : Machine) (name : String) :
      Means call scope machine (.identifier name) name machine
  | string (machine : Machine) (name : String) :
      Means call scope machine (.string name) name machine
  | number (machine : Machine) (value : Float) :
      Means call scope machine (.number value) (Number.text value) machine
  | computed {machine after : Machine} {expr : Expr} {value : Value}
      (evaluates : evalExpr call scope expr machine = .ok value after) :
      Means call scope machine (.computed expr) (after.store.display value) after

/-- The pairs that properties give, as they are evaluated one after the other. -/
inductive Pairs (call : Call) (scope : FrameId) :
    Machine → List Property → List (String × Value) → Machine → Prop where
  | nil (machine : Machine) : Pairs call scope machine [] [] machine
  | value {machine middle next after : Machine} {name : PropertyName} {key : String} {expr : Expr}
      {value : Value} {rest : List Property} {pairs : List (String × Value)}
      (means : Means call scope machine name key middle)
      (evaluates : evalExpr call scope expr middle = .ok value next)
      (more : Pairs call scope next rest pairs after) :
      Pairs call scope machine (.value name expr :: rest) ((key, value) :: pairs) after
  | shorthand {machine after : Machine} {name : String} {value : Value} {rest : List Property}
      {pairs : List (String × Value)} (found : machine.store.lookup scope name = .ok value)
      (more : Pairs call scope machine rest pairs after) :
      Pairs call scope machine (.shorthand name :: rest) ((name, value) :: pairs) after
  | spread {machine next after : Machine} {expr : Expr} {value : Value} {rest : List Property}
      {pairs : List (String × Value)}
      (evaluates : evalExpr call scope expr machine = .ok value next)
      (more : Pairs call scope next rest pairs after) :
      Pairs call scope machine (.spread expr :: rest) (next.store.pairsOf value ++ pairs) after
  | method {machine middle next after : Machine} {name : PropertyName} {key : String}
      {definition : FunctionDefinition} {function : Value} {rest : List Property}
      {pairs : List (String × Value)} (means : Means call scope machine name key middle)
      (makes : closure scope definition middle = .ok function next)
      (more : Pairs call scope next rest pairs after) :
      Pairs call scope machine (.method name definition :: rest) ((key, function) :: pairs) after

end Eval

namespace Object

/-- An object after one pair after the other was set. -/
def setAll (object : Object) (pairs : List (String × Value)) : Object :=
  pairs.foldl (fun object (key, value) => object.set key value) object

theorem setAll_append (object : Object) (pairs others : List (String × Value)) :
    object.setAll (pairs ++ others) = (object.setAll pairs).setAll others :=
  List.foldl_append

theorem merge_eq_setAll (object source : Object) :
    object.merge source =
      object.setAll (source.entries.map fun (key, value) => (key.text, value)) := by
  rw [setAll, List.foldl_map]
  rfl

theorem merge_properties (object : Object) (store : Store) (value : Value) :
    object.merge ((value.object?.map store.objectAt).getD .empty) =
      object.setAll (store.pairsOf value) := by
  cases value with
  | object id => exact merge_eq_setAll object _
  | array id => exact merge_eq_setAll object _
  | _ => rfl

end Object

namespace Eval

variable {call : Call} {scope : FrameId} {machine after : Machine}

theorem evalName_eq_ok_iff {name : PropertyName} {key : String} :
    evalName call scope name machine = .ok key after ↔ Means call scope machine name key after := by
  constructor
  · intro evaluates
    cases name with
    | identifier name =>
      cases evaluates
      exact .identifier _ _
    | string name =>
      cases evaluates
      exact .string _ _
    | number value =>
      cases evaluates
      exact .number _ _
    | computed expr =>
      rw [evalName] at evaluates
      obtain ⟨value, middle, here, shows⟩ := bind_eq_ok evaluates
      cases shows
      exact .computed here
  · intro means
    cases means with
    | computed evaluates =>
      rw [evalName, bind_of_ok evaluates]
      rfl
    | _ => rfl

theorem Pairs.evalProperties {properties : List Property} {pairs : List (String × Value)}
    (gives : Pairs call scope machine properties pairs after) (object : Object) :
    evalProperties call scope object properties machine = .ok (object.setAll pairs) after := by
  induction gives generalizing object with
  | nil => rfl
  | value means evaluates _ ih =>
    rw [Eval.evalProperties, bind_of_ok (evalName_eq_ok_iff.mpr means), bind_of_ok evaluates, ih]
    rfl
  | @shorthand machine _ name value _ _ found _ ih =>
    have looks : lookup scope name machine = .ok value machine := reading_of_ok found
    rw [Eval.evalProperties, bind_of_ok looks, ih]
    rfl
  | @spread _ next _ _ value _ _ evaluates _ ih =>
    have source : Eval.properties value next = .ok _ next := rfl
    rw [Eval.evalProperties, bind_of_ok evaluates, bind_of_ok source, ih,
      Object.merge_properties, Object.setAll_append]
  | method means makes _ ih =>
    rw [Eval.evalProperties, bind_of_ok (evalName_eq_ok_iff.mpr means), bind_of_ok makes, ih]
    rfl

theorem exists_pairs {properties : List Property} {object result : Object}
    (evaluates : evalProperties call scope object properties machine = .ok result after) :
    ∃ pairs, Pairs call scope machine properties pairs after ∧ result = object.setAll pairs := by
  induction properties generalizing machine object with
  | nil =>
    cases evaluates
    exact ⟨[], .nil _, rfl⟩
  | cons first rest ih =>
    cases first with
    | value name expr =>
      rw [evalProperties] at evaluates
      obtain ⟨key, middle, named, evaluates⟩ := bind_eq_ok evaluates
      obtain ⟨value, next, here, evaluates⟩ := bind_eq_ok evaluates
      obtain ⟨pairs, gives, rfl⟩ := ih evaluates
      exact ⟨_, .value (evalName_eq_ok_iff.mp named) here gives, rfl⟩
    | shorthand name =>
      rw [evalProperties] at evaluates
      obtain ⟨value, next, looks, follows⟩ := bind_eq_ok evaluates
      obtain ⟨found, rfl⟩ := reading_eq_ok looks
      obtain ⟨pairs, gives, rfl⟩ := ih follows
      exact ⟨_, .shorthand found gives, rfl⟩
    | spread expr =>
      rw [evalProperties] at evaluates
      obtain ⟨value, next, here, evaluates⟩ := bind_eq_ok evaluates
      obtain ⟨source, _, reads, evaluates⟩ := bind_eq_ok evaluates
      cases reads
      obtain ⟨pairs, gives, rfl⟩ := ih evaluates
      refine ⟨_, .spread here gives, ?_⟩
      rw [Object.merge_properties, Object.setAll_append]
    | method name definition =>
      rw [evalProperties] at evaluates
      obtain ⟨key, middle, named, evaluates⟩ := bind_eq_ok evaluates
      obtain ⟨function, next, makes, evaluates⟩ := bind_eq_ok evaluates
      obtain ⟨pairs, gives, rfl⟩ := ih evaluates
      exact ⟨_, .method (evalName_eq_ok_iff.mp named) makes gives, rfl⟩

/-- Properties set the pairs that they give, one after the other. -/
theorem evalProperties_eq_ok_iff {properties : List Property} {object result : Object} :
    evalProperties call scope object properties machine = .ok result after ↔
      ∃ pairs, Pairs call scope machine properties pairs after ∧ result = object.setAll pairs := by
  refine ⟨exists_pairs, ?_⟩
  rintro ⟨pairs, gives, rfl⟩
  exact gives.evalProperties object

end Eval

/-! ## The last value and the first place -/

namespace Object

/-- The value of the last pair of a key. -/
def lastValue (pairs : List (String × Value)) (key : String) : Option Value :=
  ((pairs.filter (·.1 == key)).getLast?).map (·.2)

/-- The place of the first pair of a key. -/
def firstPlace (pairs : List (String × Value)) (key : String) : Nat :=
  pairs.findIdx (·.1 == key)

/-- Whether an object has the last value of every key of the pairs at its first place, the
indices before the names. -/
structure Collects (object : Object) (pairs : List (String × Value)) : Prop where
  get : ∀ key, object.get? key = lastValue pairs key
  keys : ∀ key, key ∈ object.entries.map (·.1.text) ↔ key ∈ pairs.map (·.1)
  once : (object.entries.map (·.1)).Nodup
  entries : ∃ (indexed : List (Nat × Value)) (named : List (String × Value)),
    object.entries = indexed.map (fun (index, value) => (.index index, value)) ++
      named.map (fun (name, value) => (.name name, value)) ∧
    indexed.Pairwise (fun one next => one.1 < next.1) ∧
    named.Pairwise (fun one next => firstPlace pairs one.1 < firstPlace pairs next.1) ∧
    (∀ index value, (index, value) ∈ indexed ↔
      index < Key.indexBound ∧ lastValue pairs (toString index) = some value) ∧
    ∀ name value, (name, value) ∈ named ↔
      (∀ index < Key.indexBound, name ≠ toString index) ∧ lastValue pairs name = some value

variable {pairs : List (String × Value)} {key : String}

/-- The change that a pair makes. -/
def Change.ofPair (pair : String × Value) : Change :=
  .set pair.1 pair.2

theorem setAll_eq_afterChanges (object : Object) (pairs : List (String × Value)) :
    object.setAll pairs = object.afterChanges (pairs.map Change.ofPair) := by
  rw [afterChanges, List.foldl_map]
  rfl

theorem valueAfter_ofPair (pairs : List (String × Value)) (key : String) :
    valueAfter [] (pairs.map Change.ofPair) key = lastValue pairs key := by
  have filtered : (pairs.map Change.ofPair).filter (·.key == key) =
      (pairs.filter (·.1 == key)).map Change.ofPair := List.filter_map
  unfold valueAfter lastValue
  rw [filtered, List.getLast?_map]
  cases (pairs.filter (·.1 == key)).getLast? <;> rfl

theorem isSome_lastValue_iff : (lastValue pairs key).isSome ↔ key ∈ pairs.map (·.1) := by
  simp [lastValue]

/-- Where only pairs are set, a key arrives with its first pair. -/
theorem firstPlace_of_arrivesAt {position : Nat}
    (arrives : ArrivesAt [] (pairs.map Change.ofPair) key position) :
    firstPlace pairs key = position := by
  obtain ⟨value, isSet⟩ := arrives.set
  obtain ⟨⟨own, _⟩, isPair, sets⟩ := Option.map_eq_some_iff.mp (List.getElem?_map ▸ isSet)
  obtain ⟨rfl, rfl⟩ := Change.set.inj sets
  obtain ⟨inside, isPair⟩ := List.getElem?_eq_some_iff.mp isPair
  have absent := arrives.absent
  rw [← List.map_take, valueAfter_ofPair] at absent
  have noneBefore : own ∉ (pairs.take position).map (·.1) := by
    rw [← isSome_lastValue_iff, absent]
    simp
  rw [firstPlace, List.findIdx_eq inside]
  refine ⟨by simp [isPair], fun place before => ?_⟩
  simp only [beq_eq_false_iff_ne, ne_eq]
  rintro rfl
  apply noneBefore
  refine List.mem_map.mpr ⟨pairs[place], ?_, rfl⟩
  exact List.mem_take_iff_getElem.mpr ⟨place, by omega, rfl⟩

theorem Canonical.ofText_name {object : Object} (canonical : object.Canonical) {name : String}
    {value : Value} (member : (name, value) ∈ object.named) : Key.ofText name = .name name :=
  Key.ofText_eq_name_iff.mpr ⟨rfl, not_exists.mpr (canonical.names _ member)⟩

/-- The keys of a canonical object are read as they are written. -/
theorem Canonical.ofText_text {object : Object} (canonical : object.Canonical) {entry : Key × Value}
    (member : entry ∈ object.entries) : Key.ofText entry.1.text = entry.1 := by
  rcases List.mem_append.mp member with member | member
  · obtain ⟨⟨index, value⟩, isEntry, rfl⟩ := List.mem_map.mp member
    have below := (canonical.index_mem_iff.mp isEntry).1
    show Key.ofText (toString index) = .index index
    exact Key.ofText_toString below
  · obtain ⟨⟨name, value⟩, isEntry, rfl⟩ := List.mem_map.mp member
    show Key.ofText name = .name name
    exact canonical.ofText_name isEntry

/-- Pairs that are set one after the other are collected. -/
theorem collects_setAll (pairs : List (String × Value)) :
    (empty.setAll pairs).Collects pairs := by
  rw [setAll_eq_afterChanges]
  have canonical := canonical_afterChanges .empty (pairs.map Change.ofPair)
  have get (key : String) :
      (empty.afterChanges (pairs.map Change.ofPair)).get? key = lastValue pairs key := by
    rw [get?_afterChanges .empty, valueAfter_ofPair]
  refine ⟨get, fun key => ?_, canonical.nodup_keys, _, _, rfl, canonical.ascending, ?_,
    fun index value => ?_, fun name value => ?_⟩
  · rw [← isSome_lastValue_iff, ← get, Object.get?, canonical.isSome_getKey?_iff]
    simp only [List.mem_map]
    constructor
    · rintro ⟨entry, member, rfl⟩
      exact ⟨entry, member, (canonical.ofText_text member).symm⟩
    · rintro ⟨entry, member, isKey⟩
      exact ⟨entry, member, by rw [isKey, Key.text_ofText]⟩
  · refine (List.pairwise_map.mp (names_ordered .empty _)).imp ?_
    rintro one next ⟨position, later, arrives, arrives', lt⟩
    rwa [firstPlace_of_arrivesAt arrives, firstPlace_of_arrivesAt arrives']
  · rw [← get]
    exact canonical.index_mem_iff
  · rw [← get]
    exact canonical.name_mem_iff

end Object

/-! ## Copies -/

theorem Sparse.put_of_above {α : Type} {sparse : Sparse α} {index : Nat}
    (below : ∀ entry ∈ sparse, entry.1 < index) (value : α) :
    sparse.put index value = sparse ++ [(index, value)] := by
  induction sparse with
  | nil => rfl
  | cons first rest ih =>
    have lt := below first List.mem_cons_self
    rw [put, if_neg (Nat.lt_asymm lt), if_neg (Nat.ne_of_gt lt),
      ih fun entry member => below entry (List.mem_cons_of_mem _ member)]
    rfl

theorem Dict.put_of_absent {α : Type} {dict : Dict α} {name : String}
    (absent : name ∉ dict.map (·.1)) (value : α) :
    dict.put name value = dict ++ [(name, value)] := by
  induction dict with
  | nil => rfl
  | cons first rest ih =>
    simp only [List.map_cons, List.mem_cons, not_or] at absent
    rw [put, if_neg (by simpa using Ne.symm absent.1), ih absent.2]
    rfl

namespace Object

theorem setAll_indexed {indexed : Sparse Value}
    (ascending : indexed.Pairwise fun one next => one.1 < next.1)
    (indices : ∀ entry ∈ indexed, entry.1 < Key.indexBound) :
    empty.setAll (indexed.map fun (index, value) => (toString index, value)) =
      ⟨indexed, []⟩ := by
  induction indexed using List.reverseRecOn with
  | nil => rfl
  | append_singleton indexed last ih =>
    obtain ⟨ascending, -, below⟩ := List.pairwise_append.mp ascending
    have isIndex := Key.ofText_toString (indices last (by simp))
    rw [List.map_append, setAll_append,
      ih ascending fun entry member => indices entry (List.mem_append_left _ member)]
    show Object.set _ (toString last.1) last.2 = _
    rw [set, isIndex]
    simp only [Sparse.put_of_above (fun entry member => below entry member last (by simp))]

theorem setAll_named (indexed : Sparse Value) {named : Dict Value}
    (once : (named.map (·.1)).Nodup)
    (names : ∀ name value, (name, value) ∈ named → Key.ofText name = .name name) :
    (Object.mk indexed []).setAll named = ⟨indexed, named⟩ := by
  induction named using List.reverseRecOn with
  | nil => rfl
  | append_singleton named last ih =>
    rw [List.map_append] at once
    obtain ⟨once, -, apart⟩ := List.nodup_append.mp once
    have isName := names last.1 last.2 (by simp)
    rw [setAll_append, ih once fun name value member =>
      names name value (List.mem_append_left _ member)]
    show Object.set _ last.1 last.2 = _
    rw [set, isName]
    have absent : last.1 ∉ named.map (·.1) := fun member => apart _ member _ (by simp) rfl
    simp only [Dict.put_of_absent absent]

/-- What a canonical object gives to an object without properties is all that it has. -/
theorem Canonical.merge_empty {object : Object} (canonical : object.Canonical) :
    Object.empty.merge object = object := by
  have split : object.entries.map (fun (key, value) => (key.text, value)) =
      object.indexed.map (fun (index, value) => (toString index, value)) ++ object.named := by
    rw [entries, List.map_append, List.map_map, List.map_map]
    congr 1
    exact List.map_id _
  have indices : ∀ entry ∈ object.indexed, entry.1 < Key.indexBound :=
    fun entry member => (canonical.index_mem_iff.mp member).1
  rw [merge_eq_setAll, split, setAll_append, setAll_indexed canonical.ascending indices,
    setAll_named _ canonical.once fun _ _ => canonical.ofText_name]

end Object

/-- How object literals are evaluated from a machine on. -/
structure Eval.CollectsPairs (call : Call) (scope : FrameId) (machine : Machine) : Prop where
  /-- A new object collects the pairs that its properties give. -/
  literal : ∀ properties value after,
    evalExpr call scope (.object properties) machine = .ok value after →
    ∃ pairs middle object, Pairs call scope machine properties pairs middle ∧
      object.Collects pairs ∧ value = .object middle.store.nextObject ∧
      after = { middle with store := middle.store.addObject object }
  /-- Properties that give pairs make an object. -/
  succeeds : ∀ properties pairs middle, Pairs call scope machine properties pairs middle →
    ∃ value after, evalExpr call scope (.object properties) machine = .ok value after
  /-- A literal that only spreads an object or array has just the same entries. -/
  copies : ∀ expr value id middle, evalExpr call scope expr machine = .ok value middle →
    value = .object id ∨ value = .array id → middle.store.Canonical →
    ∃ object, object.entries = (middle.store.objectAt id).entries ∧
      evalExpr call scope (.object [.spread expr]) machine =
        .ok (.object middle.store.nextObject)
          { middle with store := middle.store.addObject object }

namespace Eval

variable {call : Call} {scope : FrameId} {machine middle : Machine} {properties : List Property}
  {pairs : List (String × Value)}

theorem Pairs.evalExpr (gives : Pairs call scope machine properties pairs middle) :
    evalExpr call scope (.object properties) machine = .ok (.object middle.store.nextObject)
      { middle with store := middle.store.addObject (Object.empty.setAll pairs) } := by
  rw [Eval.evalExpr, bind_of_ok (gives.evalProperties .empty)]
  rfl

theorem collectsPairs (call : Call) (scope : FrameId) (machine : Machine) :
    CollectsPairs call scope machine where
  literal properties value after evaluates := by
    rw [evalExpr] at evaluates
    obtain ⟨object, middle, found, makes⟩ := bind_eq_ok evaluates
    obtain ⟨pairs, gives, rfl⟩ := evalProperties_eq_ok_iff.mp found
    cases makes
    exact ⟨pairs, middle, _, gives, Object.collects_setAll pairs, rfl, rfl⟩
  succeeds properties pairs middle gives := ⟨_, _, gives.evalExpr⟩
  copies expr value id middle evaluates isObject canonical := by
    have source : Object.empty.setAll (middle.store.pairsOf value) = middle.store.objectAt id := by
      rw [← (canonical id).merge_empty, ← Object.merge_properties]
      rcases isObject with rfl | rfl <;> rfl
    have gives : Pairs call scope machine [.spread expr] _ middle := .spread evaluates (.nil middle)
    refine ⟨_, rfl, ?_⟩
    rw [gives.evalExpr, List.append_nil, source]

end Eval

/-- An object literal keeps the last value and the first place of every key that its properties
give, the indices before the names. A spread alone copies the entries of an object or array in
their order, if the store is canonical. Every store is canonical that scripts leave, and stays so
while expressions and statements are evaluated. -/
theorem object_literals_collect_pairs :
    (∀ (call : Call) (scope : FrameId) (machine : Machine), CollectsPairs call scope machine) ∧
      (∀ limit room : Nat, KeepsCanonical (callFunction limit room)) ∧
      ∀ (limit : Nat) (sink : Sink) (codes : List String),
        ((Engine.new limit sink).afterAll codes).machine.store.Canonical :=
  ⟨collectsPairs, keepsCanonical_callFunction, Engine.afterAll_canonical⟩

/-- The properties of `{ b: null, "1": true, ...["x", false], ...null, [true]: null, b: "y" }`. -/
def overwritingProperties : List Property :=
  [.value (.identifier "b") .null, .value (.string "1") (.boolean true),
    .spread (.array [.item (.string "x"), .item (.boolean false)]), .spread .null,
    .value (.computed (.boolean true)) .null, .value (.identifier "b") (.string "y")]

/-- The array overwrites the value of `1` and comes first, `b` stays before `true`. A spread of
the new object copies it. -/
theorem overwritingProperties_collected :
    ∃ pairs middle object after,
      Pairs (callFunction 4 2) Engine.global idleMachine overwritingProperties pairs middle ∧
      object.Collects pairs ∧
      evalExpr (callFunction 4 2) Engine.global (.object overwritingProperties) idleMachine =
        .ok (.object 2) after ∧
      after.store.Canonical ∧ after.store.objectAt 2 = object ∧
      after.store.display (.object 2) =
        "\x7b 0: \"x\", 1: false, b: \"y\", true: null \x7d" ∧
      ∃ copy last, copy.entries = object.entries ∧
        evalExpr (callFunction 4 2) Engine.global
          (.object [.spread (.object overwritingProperties)]) idleMachine =
            .ok (.object 3) last ∧ last.store.objectAt 3 = copy := by
  have canonical : idleMachine.store.Canonical := Engine.afterAll_canonical 4 .unlimited []
  obtain ⟨all, keeps, -⟩ := object_literals_collect_pairs
  have collects := all (callFunction 4 2) Engine.global idleMachine
  obtain ⟨after, evaluates, shows⟩ : ∃ after,
      evalExpr (callFunction 4 2) Engine.global (.object overwritingProperties) idleMachine =
        .ok (.object 2) after ∧
      after.store.nextObject = 3 ∧ after.store.display (.object 2) =
        "\x7b 0: \"x\", 1: false, b: \"y\", true: null \x7d" :=
    ⟨_, rfl, rfl, by decide +kernel⟩
  have here := (keeps 4 2).expr canonical evaluates
  obtain ⟨pairs, middle, object, gives, isCollected, isObject, isAfter⟩ :=
    collects.literal _ _ _ evaluates
  have isNew : after.store.objectAt 2 = object := by
    rw [isAfter, Store.objectAt_addObject, if_pos (Value.object.inj isObject)]
  obtain ⟨copy, same, copies⟩ := collects.copies _ _ 2 _ evaluates (.inl rfl) here
  rw [shows.1] at copies
  refine ⟨pairs, middle, object, after, gives, isCollected, evaluates, here, isNew, shows.2, copy,
    _, by rw [same, isNew], copies, ?_⟩
  rw [Store.objectAt_addObject, if_pos shows.1.symm]

end Scriptlet
