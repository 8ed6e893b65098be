import Mathlib.Order.Basic
import Mathlib.Tactic.Common
import Scriptlet.Eval.Operator
import Scriptlet.Proofs.Nodes
import Scriptlet.Store.Reference

/-!
# What values stand on

A value refers to frames, objects and arrays, and a function to the tree of its body. A
footing says which of these places are known. It holds of a store if the known places lead
only to known places; then every value that is read there is known, and every change with
known values keeps it. A footing grows with each place that is made.
-/

namespace Scriptlet

/-- The frames, objects and arrays that values may refer to. -/
structure Footing where
  frame : FrameId → Prop
  object : ObjectId → Prop
  array : ObjectId → Prop

namespace Footing

/-- The footing that knows every place. -/
def all : Footing := ⟨fun _ => True, fun _ => True, fun _ => True⟩

instance : Preorder Footing where
  le before after :=
    (∀ id, before.frame id → after.frame id) ∧ (∀ id, before.object id → after.object id) ∧
      ∀ id, before.array id → after.array id
  le_refl _ := ⟨fun _ known => known, fun _ known => known, fun _ known => known⟩
  le_trans _ _ _ first second :=
    ⟨fun id known => second.1 id (first.1 id known),
      fun id known => second.2.1 id (first.2.1 id known),
      fun id known => second.2.2 id (first.2.2 id known)⟩

theorem eq_all {footing : Footing} (grows : all ≤ footing) : footing = all := by
  obtain ⟨frame, object, array⟩ := footing
  simp only [all, mk.injEq, funext_iff, eq_iff_iff, iff_true]
  exact ⟨fun id => grows.1 id trivial, fun id => grows.2.1 id trivial,
    fun id => grows.2.2 id trivial⟩

/-- One more frame. -/
def withFrame (footing : Footing) (new : FrameId) : Footing :=
  { footing with frame := fun id => footing.frame id ∨ id = new }

/-- One more object. -/
def withObject (footing : Footing) (new : ObjectId) : Footing :=
  { footing with object := fun id => footing.object id ∨ id = new }

/-- One more array. -/
def withArray (footing : Footing) (new : ObjectId) : Footing :=
  { footing with array := fun id => footing.array id ∨ id = new }

theorem le_withFrame (footing : Footing) (new : FrameId) : footing ≤ footing.withFrame new :=
  ⟨fun _ known => .inl known, fun _ known => known, fun _ known => known⟩

theorem le_withObject (footing : Footing) (new : ObjectId) : footing ≤ footing.withObject new :=
  ⟨fun _ known => known, fun _ known => .inl known, fun _ known => known⟩

theorem le_withArray (footing : Footing) (new : ObjectId) : footing ≤ footing.withArray new :=
  ⟨fun _ known => known, fun _ known => known, fun _ known => .inl known⟩

/-- Whether a place is known, as that of an object or of an array. -/
def place (footing : Footing) (id : ObjectId) : Prop :=
  footing.object id ∨ footing.array id

end Footing

/-! ## Known values -/

section

variable (node : Node → Prop)

/-- Whether every node of the body of a function has the property, and its scope is known. -/
def Function.Known (footing : Footing) : Function → Prop
  | .native _ _ => True
  | .script definition scope => definition.Every node ∧ footing.frame scope

/-- Whether all that a value refers to is known. -/
def Value.Known (footing : Footing) : Value → Prop
  | .object id => footing.object id
  | .array id => footing.array id
  | .function _ target => target.Known node footing
  | _ => True

/-- Whether the values of all entries are known. -/
def EntriesKnown {κ : Type} (footing : Footing) (entries : List (κ × Value)) : Prop :=
  ∀ entry ∈ entries, entry.2.Known node footing

/-- Whether the values of all properties are known. -/
structure Object.Known (footing : Footing) (object : Object) : Prop where
  indexed : EntriesKnown node footing object.indexed
  named : EntriesKnown node footing object.named

/-- Whether all that a frame refers to is known. -/
structure Frame.Known (footing : Footing) (frame : Frame) : Prop where
  bindings : EntriesKnown node footing frame.bindings
  parent : ∀ id ∈ frame.parent, footing.frame id

/-- Whether the known places of a store lead only to known places. -/
structure Store.Known (footing : Footing) (store : Store) : Prop where
  frames : ∀ id frame, footing.frame id → store.frames[id]? = some frame →
    frame.Known node footing
  objects : ∀ id object, footing.place id → store.objects[id]? = some object →
    object.Known node footing

/-- Whether all that a reference refers to is known. -/
def Reference.Known (footing : Footing) : Reference → Prop
  | .variable_ scope _ => footing.frame scope
  | .property object _ => object.Known node footing

end

section

variable {node : Node → Prop} {footing after : Footing}

/-! ### Where nothing is asked -/

theorem Function.known_all (function : Function) : function.Known (fun _ => True) .all := by
  cases function with
  | native _ _ => trivial
  | script definition scope => exact ⟨definition.every_of_forall fun _ => trivial, trivial⟩

theorem Value.known_all (value : Value) : value.Known (fun _ => True) .all := by
  cases value with
  | function _ target => exact target.known_all
  | _ => trivial

theorem Answer.value_known {arguments : List Value}
    (known : ∀ value ∈ arguments, value.Known node footing) (answer : Answer) :
    (answer.value arguments).Known node footing := by
  cases answer with
  | plain value => cases value <;> trivial
  | argument index =>
    rw [Answer.value]
    cases found : arguments[index]? with
    | none => trivial
    | some value => exact known value (List.mem_of_getElem? found)

theorem Store.known_all (store : Store) : store.Known (fun _ => True) .all where
  frames _ _ _ _ := ⟨fun entry _ => entry.2.known_all, fun _ _ => trivial⟩
  objects _ _ _ _ := ⟨fun entry _ => entry.2.known_all, fun entry _ => entry.2.known_all⟩

/-! ### Growing -/

theorem Function.Known.grow {function : Function} (grows : footing ≤ after)
    (known : function.Known node footing) : function.Known node after := by
  cases function with
  | native _ _ => trivial
  | script definition scope => exact ⟨known.1, grows.1 scope known.2⟩

theorem Value.Known.grow {value : Value} (grows : footing ≤ after)
    (known : value.Known node footing) : value.Known node after := by
  cases value with
  | object id => exact grows.2.1 id known
  | array id => exact grows.2.2 id known
  | function _ target => exact Function.Known.grow grows known
  | _ => trivial

theorem Reference.Known.grow {reference : Reference} (grows : footing ≤ after)
    (known : reference.Known node footing) : reference.Known node after := by
  cases reference with
  | variable_ scope name => exact grows.1 scope known
  | property object key => exact Value.Known.grow grows known

theorem EntriesKnown.grow {κ : Type} {entries : List (κ × Value)} (grows : footing ≤ after)
    (known : EntriesKnown node footing entries) : EntriesKnown node after entries :=
  fun entry member => (known entry member).grow grows

theorem Object.Known.grow {object : Object} (grows : footing ≤ after)
    (known : object.Known node footing) : object.Known node after :=
  ⟨known.indexed.grow grows, known.named.grow grows⟩

theorem Frame.Known.grow {frame : Frame} (grows : footing ≤ after)
    (known : frame.Known node footing) : frame.Known node after :=
  ⟨known.bindings.grow grows, fun id is => grows.1 id (known.parent id is)⟩

/-! ### Entries -/

theorem EntriesKnown.value? {κ : Type} {entries : List (κ × Value)}
    (known : EntriesKnown node footing entries) {is : κ × Value → Bool} {value : Value}
    (found : (entries.find? is).map (·.2) = some value) : value.Known node footing := by
  obtain ⟨entry, isEntry, rfl⟩ := Option.map_eq_some_iff.mp found
  exact known entry (List.mem_of_find?_eq_some isEntry)

theorem EntriesKnown.put {dict : Dict Value} (known : EntriesKnown node footing dict)
    (name : String) {value : Value} (new : value.Known node footing) :
    EntriesKnown node footing (dict.put name value) := by
  induction dict with
  | nil =>
    intro entry member
    rw [List.mem_singleton.mp member]
    exact new
  | cons first rest ih =>
    obtain ⟨here, later⟩ := List.forall_mem_cons.mp known
    unfold Dict.put
    split
    · exact List.forall_mem_cons.mpr ⟨new, later⟩
    · exact List.forall_mem_cons.mpr ⟨here, ih later⟩

theorem EntriesKnown.putIndex {sparse : Sparse Value} (known : EntriesKnown node footing sparse)
    (index : Nat) {value : Value} (new : value.Known node footing) :
    EntriesKnown node footing (sparse.put index value) := by
  induction sparse with
  | nil =>
    intro entry member
    rw [List.mem_singleton.mp member]
    exact new
  | cons first rest ih =>
    obtain ⟨here, later⟩ := List.forall_mem_cons.mp known
    unfold Sparse.put
    split
    · exact List.forall_mem_cons.mpr ⟨new, known⟩
    · split
      · exact List.forall_mem_cons.mpr ⟨new, later⟩
      · exact List.forall_mem_cons.mpr ⟨here, ih later⟩

theorem EntriesKnown.eraseP {κ : Type} {entries : List (κ × Value)}
    (known : EntriesKnown node footing entries) (is : κ × Value → Bool) :
    EntriesKnown node footing (entries.eraseP is) :=
  fun entry member => known entry (List.mem_of_mem_eraseP member)

theorem EntriesKnown.ofList {items : List (Option Value)}
    (known : ∀ item ∈ items, ∀ value ∈ item, value.Known node footing) :
    EntriesKnown node footing (Sparse.ofList items) := by
  intro entry member
  obtain ⟨⟨item, index⟩, place, made⟩ := List.mem_filterMap.mp member
  obtain ⟨value, isValue, rfl⟩ := Option.map_eq_some_iff.mp made
  exact known item (List.fst_mem_of_mem_zipIdx place) value isValue

theorem EntriesKnown.fillFrom {sparse : Sparse Value} (known : EntriesKnown node footing sparse)
    {items : Array Value} (before : ∀ value ∈ items, value.Known node footing) :
    ∀ value ∈ Sparse.fillFrom .undefined items sparse, value.Known node footing := by
  induction sparse generalizing items with
  | nil => exact before
  | cons first rest ih =>
    obtain ⟨here, later⟩ := List.forall_mem_cons.mp known
    apply ih later
    intro value member
    simp only [Array.mem_push, Array.mem_append, Array.mem_replicate] at member
    rcases member with (old | ⟨_, rfl⟩) | rfl
    · exact before value old
    · trivial
    · exact here

/-! ### Objects -/

namespace Object.Known

theorem empty : Object.empty.Known node footing :=
  ⟨List.forall_mem_nil _, List.forall_mem_nil _⟩

theorem ofElements {items : List (Option Value)}
    (known : ∀ item ∈ items, ∀ value ∈ item, value.Known node footing) :
    (Object.ofElements items).Known node footing :=
  ⟨.ofList known, List.forall_mem_nil _⟩

theorem set {object : Object} (known : object.Known node footing) (key : String)
    {value : Value} (new : value.Known node footing) :
    (object.set key value).Known node footing := by
  unfold Object.set
  split
  · exact ⟨known.indexed.putIndex _ new, known.named⟩
  · exact ⟨known.indexed, known.named.put _ new⟩

theorem remove {object : Object} (known : object.Known node footing) (key : String) :
    (object.remove key).Known node footing := by
  unfold Object.remove
  split
  · exact ⟨known.indexed.eraseP _, known.named⟩
  · exact ⟨known.indexed, known.named.eraseP _⟩

theorem get? {object : Object} (known : object.Known node footing) {key : String}
    {value : Value} (found : object.get? key = some value) : value.Known node footing := by
  unfold Object.get? Object.getKey? at found
  split at found
  · exact known.indexed.value? found
  · exact known.named.value? found

theorem entries {object : Object} (known : object.Known node footing) :
    EntriesKnown node footing object.entries := by
  intro entry member
  rcases List.mem_append.mp member with member | member
  · obtain ⟨source, isSource, rfl⟩ := List.mem_map.mp member
    exact known.indexed source isSource
  · obtain ⟨source, isSource, rfl⟩ := List.mem_map.mp member
    exact known.named source isSource

theorem merge {object source : Object} (known : object.Known node footing)
    (given : source.Known node footing) : (object.merge source).Known node footing := by
  have each := given.entries
  unfold Object.merge
  generalize source.entries = entries at each ⊢
  induction entries generalizing object with
  | nil => exact known
  | cons first rest ih =>
    obtain ⟨here, later⟩ := List.forall_mem_cons.mp each
    exact ih (known.set _ here) later

end Object.Known

/-! ## Reading a store -/

/-- What is expected of a result: a value with one property, or an error with another. -/
def Answers {α : Type} (good : α → Prop) (raises : Error → Prop) : Except Error α → Prop
  | .ok value => good value
  | .error error => raises error

theorem Answers.map {α β : Type} {good : α → Prop} {good' : β → Prop} {raises : Error → Prop}
    {result : Except Error α} {f : α → β} (answers : Answers good raises result)
    (maps : ∀ value, good value → good' (f value)) : Answers good' raises (result.map f) := by
  cases result with
  | ok value => exact maps value answers
  | error error => exact answers

theorem Answers.bind {α β : Type} {good : α → Prop} {good' : β → Prop} {raises : Error → Prop}
    {result : Except Error α} {f : α → Except Error β} (answers : Answers good raises result)
    (next : ∀ value, good value → Answers good' raises (f value)) :
    Answers good' raises (result >>= f) := by
  cases result with
  | ok value => exact next value answers
  | error error => exact answers

theorem Value.toNumber_answers (value : Value) :
    Answers (fun _ => True) Error.Arises value.toNumber := by
  unfold Value.toNumber
  split <;> first | trivial | exact ⟨rfl, rfl⟩

/-- Two values taken for numbers, in either order. -/
theorem Value.toNumbers_answers {α : Type} (left right : Value) {good : α → Prop}
    {f : Float → Float → α} (maps : ∀ x y, good (f x y)) :
    Answers good Error.Arises (do
      let x ← left.toNumber
      let y ← right.toNumber
      return f x y) :=
  left.toNumber_answers.bind fun x _ => right.toNumber_answers.bind fun y _ => maps x y

theorem Value.unary_answers (op : UnaryOp) (operand : Value) :
    Answers (Value.Known node footing) Error.Arises (operand.unary op) := by
  have number {f : Float → Value} (known : ∀ x, (f x).Known node footing) :
      Answers (Value.Known node footing) Error.Arises (do return f (← operand.toNumber)) :=
    operand.toNumber_answers.bind fun x _ => known x
  cases op with
  | plus | minus | bitNot => exact number fun _ => trivial
  | await => exact ⟨rfl, rfl⟩
  | _ => trivial

theorem Store.binary_answers (store : Store) (op : BinaryOp) {left right : Value}
    (first : left.Known node footing) (second : right.Known node footing) :
    Answers (Value.Known node footing) Error.Arises (store.binary op left right) := by
  have arithmetic (operation : Float → Float → Float) :
      Answers (Value.Known node footing) Error.Arises (left.arithmetic operation right) :=
    left.toNumbers_answers right fun _ _ => trivial
  have bitwise (operation : UInt32 → UInt32 → UInt32) :
      Answers (Value.Known node footing) Error.Arises (left.bitwise operation right) :=
    left.toNumbers_answers right fun _ _ => trivial
  have compare (texts : String → String → Bool) (numbers : Float → Float → Bool) :
      Answers (Value.Known node footing) Error.Arises (left.compare texts numbers right) := by
    unfold Value.compare
    split
    · trivial
    · exact left.toNumbers_answers right fun _ _ => trivial
  -- a shift converts its right operand first
  have shift {operation : Float → UInt32 → Value}
      (numeric : ∀ x count, (operation x count).Known node footing) :
      Answers (Value.Known node footing) Error.Arises (left.shift operation right) :=
    right.toNumbers_answers left fun y x => numeric x (Number.toWord y &&& 31)
  cases op with
  | add =>
    unfold Store.binary Store.add
    dsimp only
    split
    · trivial
    · exact arithmetic _
  | subtract | multiply | divide | remainder | power => exact arithmetic _
  | lessThan | lessThanEqual | greaterThan | greaterThanEqual => exact compare _ _
  | bitAnd | bitOr | bitXor => exact bitwise _
  | shiftLeft | shiftRight | unsignedShiftRight =>
    unfold Store.binary
    exact shift fun _ _ => trivial
  | equal | notEqual | strictEqual | strictNotEqual => trivial
  | logicalAnd | logicalOr | coalesce =>
    show Value.Known node footing (if _ then _ else _)
    split <;> assumption
  | in_ =>
    unfold Store.binary Store.hasProperty
    dsimp only
    split
    · trivial
    · trivial
    · exact ⟨rfl, rfl⟩
  | instanceof => exact ⟨rfl, rfl⟩

namespace Store.Known

variable {store : Store}

theorem objectAt (known : store.Known node footing) {id : ObjectId} (place : footing.place id) :
    (store.objectAt id).Known node footing := by
  unfold Store.objectAt
  cases found : store.objects[id]? with
  | none => exact .empty
  | some object => exact known.objects id object place found

theorem bindings (known : store.Known node footing) {id : FrameId} (place : footing.frame id) :
    EntriesKnown node footing (store.bindings id) := by
  unfold Store.bindings
  cases found : store.frames[id]? with
  | none => exact List.forall_mem_nil _
  | some frame => exact (known.frames id frame place found).bindings

theorem parent? (known : store.Known node footing) {id parent : FrameId}
    (place : footing.frame id) (outer : store.parent? id = some parent) :
    footing.frame parent := by
  unfold Store.parent? at outer
  obtain ⟨isParent, -⟩ := Option.filter_eq_some_iff.mp outer
  obtain ⟨frame, found, is⟩ := Option.bind_eq_some_iff.mp isParent
  exact (known.frames id frame place found).parent parent is

theorem chainUpTo (known : store.Known node footing) (count : Nat) {scope : FrameId}
    (place : footing.frame scope) : ∀ id ∈ store.chainUpTo count scope, footing.frame id := by
  induction count generalizing scope with
  | zero => exact List.forall_mem_nil _
  | succ count ih =>
    unfold Store.chainUpTo
    refine List.forall_mem_cons.mpr ⟨place, ?_⟩
    split
    · next parent outer => exact ih (known.parent? place outer)
    · exact List.forall_mem_nil _

theorem owner (known : store.Known node footing) {scope : FrameId}
    (place : footing.frame scope) (name : String) :
    footing.frame ((store.owner? scope name).getD scope) := by
  cases found : store.owner? scope name with
  | none => exact place
  | some id => exact known.chainUpTo _ place id (List.mem_of_find?_eq_some found)

theorem lookup (known : store.Known node footing) {scope : FrameId}
    (place : footing.frame scope) (name : String) :
    Answers (Value.Known node footing) Error.Arises (store.lookup scope name) := by
  unfold Store.lookup
  split
  · next value found =>
    obtain ⟨id, member, isValue⟩ := List.exists_of_findSome?_eq_some found
    exact (known.bindings (known.chainUpTo _ place id member)).value? isValue
  · exact ⟨rfl, rfl⟩

/-- A property that may be absent. -/
theorem property (known : store.Known node footing) {id : ObjectId} (place : footing.place id)
    (key : String) : (((store.objectAt id).get? key).getD .undefined).Known node footing := by
  cases found : (store.objectAt id).get? key with
  | none => trivial
  | some value => exact (known.objectAt place).get? found

theorem getProperty (known : store.Known node footing) {value : Value}
    (target : value.Known node footing) (key : String) :
    Answers (Value.Known node footing) Error.Arises (store.getProperty value key) := by
  unfold Store.getProperty
  split
  · exact known.property (.inl target) key
  · split
    · trivial
    · exact known.property (.inr target) key
  · exact ⟨rfl, rfl⟩

theorem spread (known : store.Known node footing) {value : Value}
    (target : value.Known node footing) :
    Answers (fun values => ∀ value ∈ values, value.Known node footing) Error.Arises
      (store.spread value) := by
  unfold Store.spread
  split
  · dsimp only
    split
    · exact ⟨rfl, rfl⟩
    · intro value member
      exact (known.objectAt (.inr target)).indexed.fillFrom (by simp) value
        (Array.mem_toList_iff.mp member)
  · exact ⟨rfl, rfl⟩

theorem properties (known : store.Known node footing) {value : Value}
    (target : value.Known node footing) :
    ((value.object?.map store.objectAt).getD .empty).Known node footing := by
  cases value with
  | object id => exact known.objectAt (.inl target)
  | array id => exact known.objectAt (.inr target)
  | _ => exact .empty

theorem getReference (known : store.Known node footing) {reference : Reference}
    (target : reference.Known node footing) :
    Answers (Value.Known node footing) Error.Arises (reference.get store) := by
  cases reference with
  | variable_ scope name => exact known.lookup target name
  | property object key => exact known.getProperty target key

/-! ## Changing a store -/

theorem define (known : store.Known node footing) (scope : FrameId) (name : String)
    {value : Value} (new : value.Known node footing) :
    (store.define scope name value).Known node footing := by
  refine ⟨fun id frame isKnown found => ?_, known.objects⟩
  rw [Store.define, Array.getElem?_modify] at found
  split at found
  · obtain ⟨old, isOld, rfl⟩ := Option.map_eq_some_iff.mp found
    have before := known.frames id old isKnown isOld
    exact ⟨before.bindings.put name new, before.parent⟩
  · exact known.frames id frame isKnown found

theorem addFrame (known : store.Known node footing) {parent : Option FrameId}
    (place : ∀ outer ∈ parent, footing.frame outer) :
    (store.addFrame parent).Known node (footing.withFrame store.nextFrame) := by
  have grows := footing.le_withFrame store.nextFrame
  refine ⟨fun id frame isKnown found => ?_, fun id object isKnown found => ?_⟩
  · rw [Store.addFrame, Array.getElem?_push] at found
    split at found
    · cases found
      exact ⟨List.forall_mem_nil _, fun outer isOuter => grows.1 outer (place outer isOuter)⟩
    · next old =>
      rcases isKnown with isKnown | rfl
      · exact (known.frames id frame isKnown found).grow grows
      · exact absurd rfl old
  · exact (known.objects id object isKnown found).grow grows

/-- A new object in a place that a grown footing knows. -/
theorem push (known : store.Known node footing) (grows : footing ≤ after)
    (frames : after.frame = footing.frame)
    (places : ∀ id, after.place id → footing.place id ∨ id = store.nextObject)
    {object : Object} (new : object.Known node footing) :
    (store.addObject object).Known node after := by
  refine ⟨fun id frame isKnown found => ?_, fun id other isKnown found => ?_⟩
  · rw [frames] at isKnown
    exact (known.frames id frame isKnown found).grow grows
  · rw [Store.addObject, Array.getElem?_push] at found
    split at found
    · cases found
      exact new.grow grows
    · next old =>
      rcases places id isKnown with isKnown | rfl
      · exact (known.objects id other isKnown found).grow grows
      · exact absurd rfl old

theorem addObject (known : store.Known node footing) {object : Object}
    (new : object.Known node footing) :
    (store.addObject object).Known node (footing.withObject store.nextObject) := by
  refine known.push (footing.le_withObject _) rfl (fun id isKnown => ?_) new
  rcases isKnown with (isKnown | rfl) | isKnown
  · exact .inl (.inl isKnown)
  · exact .inr rfl
  · exact .inl (.inr isKnown)

theorem addArray (known : store.Known node footing) {object : Object}
    (new : object.Known node footing) :
    (store.addObject object).Known node (footing.withArray store.nextObject) := by
  refine known.push (footing.le_withArray _) rfl (fun id isKnown => ?_) new
  rcases isKnown with isKnown | isKnown | rfl
  · exact .inl (.inl isKnown)
  · exact .inl (.inr isKnown)
  · exact .inr rfl

theorem addFunction (known : store.Known node footing) : store.addFunction.Known node footing :=
  ⟨known.frames, known.objects⟩

theorem modifyObject (known : store.Known node footing) (id : ObjectId)
    {change : Object → Object}
    (keeps : ∀ object : Object, object.Known node footing → (change object).Known node footing) :
    (store.modifyObject id change).Known node footing := by
  refine ⟨known.frames, fun other object isKnown found => ?_⟩
  rw [Store.modifyObject, Array.getElem?_modify] at found
  split at found
  · obtain ⟨old, isOld, rfl⟩ := Option.map_eq_some_iff.mp found
    exact keeps old (known.objects other old isKnown isOld)
  · exact known.objects other object isKnown found

end Store.Known

end
end Scriptlet
