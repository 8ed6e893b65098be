import Mathlib.Data.List.Basic
import Scriptlet.Eval.Machine

/-!
# Changing the code of functions

The code of a function is kept in the values that refer to it, and through them all over
the store. No operation of the store looks into it, beyond the name of the function: each
gives, on a store with changed code, what it gives on the store itself, with the same
change.
-/

namespace Scriptlet

/-- A change of the code of functions that leaves their names alone. -/
structure Recoding where
  change : FunctionDefinition → FunctionDefinition
  name_change : ∀ definition, (change definition).name = definition.name

variable {code : Recoding}

def Function.recode (code : Recoding) : Function → Function
  | .native name behaviour => .native name behaviour
  | .script definition scope => .script (code.change definition) scope

def Value.recode (code : Recoding) : Value → Value
  | .function id target => .function id (target.recode code)
  | value => value

/-- The entries of a frame or object, with changed code in their values. -/
def recodeEntries {κ : Type} (code : Recoding) (entries : List (κ × Value)) : List (κ × Value) :=
  entries.map (Prod.map id (Value.recode code))

def Object.recode (code : Recoding) (object : Object) : Object :=
  ⟨recodeEntries code object.indexed, recodeEntries code object.named⟩

def Frame.recode (code : Recoding) (frame : Frame) : Frame :=
  { frame with bindings := recodeEntries code frame.bindings }

def Store.recode (code : Recoding) (store : Store) : Store :=
  { store with
    frames := store.frames.map (Frame.recode code)
    objects := store.objects.map (Object.recode code) }

def Reference.recode (code : Recoding) : Reference → Reference
  | .variable_ scope name => .variable_ scope name
  | .property object key => .property (object.recode code) key

/-! ## Values -/

namespace Value

theorem typeName_recode (value : Value) : (value.recode code).typeName = value.typeName := by
  cases value <;> rfl

theorem typeOf_recode (value : Value) : (value.recode code).typeOf = value.typeOf := by
  cases value <;> rfl

theorem object?_recode (value : Value) : (value.recode code).object? = value.object? := by
  cases value <;> rfl

theorem isNullish_recode (value : Value) : (value.recode code).isNullish = value.isNullish := by
  cases value <;> rfl

theorem isTruthy_recode (value : Value) : (value.recode code).isTruthy = value.isTruthy := by
  cases value <;> rfl

theorem isText_recode (value : Value) : (value.recode code).isText = value.isText := by
  cases value <;> rfl

theorem isNumeric_recode (value : Value) : (value.recode code).isNumeric = value.isNumeric := by
  cases value <;> rfl

theorem toNumber_recode (value : Value) : (value.recode code).toNumber = value.toNumber := by
  cases value <;> rfl

theorem comparedNumber_recode (value : Value) :
    (value.recode code).comparedNumber = value.comparedNumber := by
  cases value <;> rfl

theorem places?_recode (left right : Value) :
    (left.recode code).places? (right.recode code) = left.places? right := by
  cases left <;> cases right <;> rfl

/-- Functions are compared by identity, not by their code. -/
theorem strictEquals_recode (left right : Value) :
    (left.recode code).strictEquals (right.recode code) = left.strictEquals right := by
  cases left <;> cases right <;> rfl

theorem primitiveEquals_recode (left right : Value) :
    (left.recode code).primitiveEquals (right.recode code) = left.primitiveEquals right := by
  simp only [primitiveEquals, isNullish_recode, isNumeric_recode, isText_recode,
    comparedNumber_recode, strictEquals_recode]

theorem shortCircuits_recode (op : BinaryOp) (value : Value) :
    op.shortCircuits (value.recode code) = op.shortCircuits value := by
  simp only [BinaryOp.shortCircuits, isTruthy_recode, isNullish_recode]

end Value

theorem Answer.value_recode (answer : Answer) (arguments : List Value) :
    answer.value (arguments.map (Value.recode code)) = (answer.value arguments).recode code := by
  cases answer with
  | plain value => cases value <;> rfl
  | argument index =>
    simp only [Answer.value, List.getElem?_map]
    cases arguments[index]? <;> rfl

/-! ## Entries -/

section

variable {κ : Type} [BEq κ]

theorem find?_recodeEntries (entries : List (κ × Value)) (key : κ) :
    ((recodeEntries code entries).find? (·.1 == key)).map (·.2) =
      ((entries.find? (·.1 == key)).map (·.2)).map (Value.recode code) := by
  simp only [recodeEntries, List.find?_map, Function.comp_def, Prod.map_fst, id_eq, Option.map_map,
    Prod.map_snd]

theorem eraseP_recodeEntries (entries : List (κ × Value)) (key : κ) :
    (recodeEntries code entries).eraseP (·.1 == key) =
      recodeEntries code (entries.eraseP (·.1 == key)) := by
  simp only [recodeEntries, List.eraseP_map, Function.comp_def, Prod.map_fst, id_eq]

end

theorem Dict.get?_recode (dict : Dict Value) (name : String) :
    Dict.get? (recodeEntries code dict) name = (dict.get? name).map (Value.recode code) :=
  find?_recodeEntries dict name

theorem Dict.put_recode (dict : Dict Value) (name : String) (value : Value) :
    Dict.put (recodeEntries code dict) name (value.recode code) =
      recodeEntries code (dict.put name value) := by
  induction dict with
  | nil => rfl
  | cons entry rest ih =>
    simp only [recodeEntries, List.map_cons, Dict.put, Prod.map_fst, id_eq] at ih ⊢
    by_cases same : (entry.1 == name) = true
    · simp [same]
    · simp [same, ih]

theorem Sparse.get?_recode (sparse : Sparse Value) (index : Nat) :
    Sparse.get? (recodeEntries code sparse) index = (sparse.get? index).map (Value.recode code) :=
  find?_recodeEntries sparse index

theorem Sparse.put_recode (sparse : Sparse Value) (index : Nat) (value : Value) :
    Sparse.put (recodeEntries code sparse) index (value.recode code) =
      recodeEntries code (sparse.put index value) := by
  induction sparse with
  | nil => rfl
  | cons entry rest ih =>
    simp only [recodeEntries, List.map_cons, Sparse.put, Prod.map_fst, id_eq] at ih ⊢
    by_cases before : index < entry.1
    · simp [before]
    · by_cases same : index = entry.1
      · simp [same]
      · simp [before, same, ih]

theorem Sparse.length_recode (sparse : Sparse Value) :
    Sparse.length (recodeEntries code sparse) = sparse.length := by
  unfold Sparse.length recodeEntries
  rw [List.getLast?_map]
  cases sparse.getLast? <;> rfl

theorem Sparse.ofList_recode (items : List (Option Value)) :
    Sparse.ofList (items.map (Option.map (Value.recode code))) =
      recodeEntries code (Sparse.ofList items) := by
  simp only [Sparse.ofList, recodeEntries, List.zipIdx_map, List.filterMap_map, List.map_filterMap]
  congr 1
  funext item
  obtain ⟨value, index⟩ := item
  cases value <;> rfl

theorem Sparse.toList_recode (sparse : Sparse Value) :
    Sparse.toList (recodeEntries code sparse) .undefined =
      (sparse.toList .undefined).map (Value.recode code) := by
  have filled (items : Array Value) :
      Sparse.fillFrom .undefined (items.map (Value.recode code)) (recodeEntries code sparse) =
        (Sparse.fillFrom .undefined items sparse).map (Value.recode code) := by
    induction sparse generalizing items with
    | nil => rfl
    | cons entry rest ih =>
      rw [Sparse.fillFrom, ← ih]
      simp [recodeEntries, Sparse.fillFrom, Value.recode]
  have whole := congrArg Array.toList (filled #[])
  simpa [Sparse.toList] using whole

/-! ## Objects -/

namespace Object

theorem ofElements_recode (elements : List (Option Value)) :
    (ofElements (elements.map (Option.map (Value.recode code)))) =
      (ofElements elements).recode code := by
  simp only [ofElements, recode, Sparse.ofList_recode]
  rfl

theorem getKey?_recode (object : Object) (key : Key) :
    (object.recode code).getKey? key = (object.getKey? key).map (Value.recode code) := by
  cases key with
  | index index => exact Sparse.get?_recode object.indexed index
  | name name => exact Dict.get?_recode object.named name

theorem get?_recode (object : Object) (key : String) :
    (object.recode code).get? key = (object.get? key).map (Value.recode code) :=
  object.getKey?_recode _

theorem set_recode (object : Object) (key : String) (value : Value) :
    (object.recode code).set key (value.recode code) = (object.set key value).recode code := by
  unfold Object.set
  cases Key.ofText key with
  | index index => simp only [recode, Sparse.put_recode]
  | name name => simp only [recode, Dict.put_recode]

theorem remove_recode (object : Object) (key : String) :
    (object.recode code).remove key = (object.remove key).recode code := by
  unfold Object.remove Sparse.remove Dict.remove
  cases Key.ofText key with
  | index index => simp only [recode, eraseP_recodeEntries]
  | name name => simp only [recode, eraseP_recodeEntries]

theorem contains_recode (object : Object) (key : String) :
    (object.recode code).contains key = object.contains key := by
  rw [contains, contains, get?_recode, Option.isSome_map]

theorem length_recode (object : Object) : (object.recode code).length = object.length :=
  congrArg (min · 4294967295) (Sparse.length_recode object.indexed)

theorem isEmpty_recode (object : Object) : (object.recode code).isEmpty = object.isEmpty := by
  simp [isEmpty, recode, recodeEntries]

theorem entries_recode (object : Object) :
    (object.recode code).entries = recodeEntries code object.entries := by
  simp [entries, recode, recodeEntries, Function.comp_def]

theorem merge_recode (object source : Object) :
    (object.recode code).merge (source.recode code) = (object.merge source).recode code := by
  unfold Object.merge
  rw [entries_recode]
  induction source.entries generalizing object with
  | nil => rfl
  | cons entry rest ih =>
    simp only [recodeEntries, List.map_cons, List.foldl_cons] at ih ⊢
    rw [← ih, ← set_recode]
    rfl

end Object

/-! ## Texts and comparisons -/

theorem Function.display_recode (function : Function) :
    (function.recode code).display = function.display := by
  cases function with
  | native name behaviour => rfl
  | script definition scope => simp only [recode, display, name?, code.name_change]

theorem elementTexts_recode (text : Value → String) (next : Nat) (sparse : Sparse Value) :
    elementTexts text next (recodeEntries code sparse) =
      elementTexts (fun value => text (value.recode code)) next sparse := by
  induction sparse generalizing next with
  | nil => rfl
  | cons entry rest ih =>
    have later := ih (entry.1 + 1)
    unfold recodeEntries at later
    simp only [recodeEntries, List.map_cons, elementTexts, Prod.map_fst, Prod.map_snd, id_eq,
      later]

namespace Object

theorem displayObject_recode (text : Value → String) (object : Object) :
    (object.recode code).displayObject text =
      object.displayObject fun value => text (value.recode code) := by
  unfold displayObject
  rw [isEmpty_recode, entries_recode, recodeEntries, List.map_map]
  rfl

theorem displayArray_recode (text : Value → String) (object : Object) :
    (object.recode code).displayArray text =
      object.displayArray fun value => text (value.recode code) := by
  unfold displayArray
  rw [isEmpty_recode]
  simp only [recode, elementTexts_recode]
  simp only [recodeEntries, List.map_map]
  rfl

theorem matches_recode (related : Value → Value → Bool) (left right : Object) :
    (left.recode code).matches related (right.recode code) =
      left.matches (fun value other => related (value.recode code) (other.recode code)) right := by
  unfold Object.matches
  simp only [entries_recode, recodeEntries, List.length_map, List.all_map, Function.comp_def,
    getKey?_recode, Prod.map_fst, Prod.map_snd, id_eq]
  congr 2
  funext entry
  cases right.getKey? entry.1 <;> rfl

end Object

namespace Store

theorem objectAt_recode (store : Store) (id : ObjectId) :
    (store.recode code).objectAt id = (store.objectAt id).recode code := by
  simp only [objectAt, recode, Array.getElem?_map]
  cases store.objects[id]? <;> rfl

theorem displayStep_recode (store : Store) (nested : ObjectId → Value → String)
    (path : List ObjectId) (value : Value) :
    (store.recode code).displayStep nested path (value.recode code) =
      store.displayStep (fun id inner => nested id (inner.recode code)) path value := by
  cases value with
  | function id target => exact target.display_recode
  | object id =>
    simp only [Value.recode, displayStep, objectAt_recode, Object.displayObject_recode]
  | array id =>
    simp only [Value.recode, displayStep, objectAt_recode, Object.displayArray_recode]
  | _ => rfl

theorem displayNested_recode (store : Store) (room : Nat) (path : List ObjectId) (value : Value) :
    (store.recode code).displayNested room path (value.recode code) =
      store.displayNested room path value := by
  induction room generalizing path value with
  | zero => rfl
  | succ room ih =>
    rw [displayNested, displayStep_recode]
    simp only [ih]
    rfl

theorem display_recode (store : Store) (value : Value) :
    (store.recode code).display (value.recode code) = store.display value := by
  have size : (store.recode code).objects.size = store.objects.size := Array.size_map
  cases value with
  | string text => rfl
  | _ =>
    unfold display
    rw [size]
    exact displayNested_recode store _ [] _

theorem look_recode (store : Store) (value : Value) :
    (store.recode code).look (value.recode code) = store.look value := by
  simp only [look, display_recode, Value.typeName_recode, Value.toNumber_recode]

theorem looseEqualsOn_recode (store : Store) (room : Nat) (path : List (ObjectId × ObjectId))
    (left right : Value) :
    (store.recode code).looseEqualsOn room path (left.recode code) (right.recode code) =
      store.looseEqualsOn room path left right := by
  induction room generalizing path left right with
  | zero => rfl
  | succ room ih =>
    simp only [looseEqualsOn, looseEqualsStep, Value.places?_recode, Value.primitiveEquals_recode,
      objectAt_recode, Object.matches_recode, ih]

theorem looseEquals_recode (store : Store) (left right : Value) :
    (store.recode code).looseEquals (left.recode code) (right.recode code) =
      store.looseEquals left right := by
  have size : (store.recode code).objects.size = store.objects.size := Array.size_map
  unfold looseEquals
  rw [size]
  exact looseEqualsOn_recode store _ [] left right

/-! ## Scopes -/

theorem parent?_recode (store : Store) (scope : FrameId) :
    (store.recode code).parent? scope = store.parent? scope := by
  simp only [parent?, recode, Array.getElem?_map]
  cases store.frames[scope]? <;> rfl

theorem chainUpTo_recode (store : Store) (count : Nat) (scope : FrameId) :
    (store.recode code).chainUpTo count scope = store.chainUpTo count scope := by
  induction count generalizing scope with
  | zero => rfl
  | succ count ih => simp only [chainUpTo, parent?_recode, ih]

theorem local?_recode (store : Store) (scope : FrameId) (name : String) :
    (store.recode code).local? scope name = (store.local? scope name).map (Value.recode code) := by
  simp only [local?, bindings, recode, Array.getElem?_map]
  cases store.frames[scope]? with
  | none => rfl
  | some frame => exact Dict.get?_recode frame.bindings name

theorem owner?_recode (store : Store) (scope : FrameId) (name : String) :
    (store.recode code).owner? scope name = store.owner? scope name := by
  simp only [owner?, chain, chainUpTo_recode, local?_recode, Option.isSome_map]

theorem resolve?_recode (store : Store) (scope : FrameId) (name : String) :
    (store.recode code).resolve? scope name =
      (store.resolve? scope name).map (Value.recode code) := by
  simp only [resolve?, chain, chainUpTo_recode, local?_recode, List.map_findSome?]
  rfl

theorem lookup_recode (store : Store) (scope : FrameId) (name : String) :
    (store.recode code).lookup scope name =
      (store.lookup scope name).map (Value.recode code) := by
  simp only [lookup, resolve?_recode]
  cases store.resolve? scope name <;> rfl

theorem binds_recode (store : Store) (scope : FrameId) (name : String) :
    (store.recode code).binds scope name = store.binds scope name := by
  rw [binds, binds, owner?_recode]

theorem bindsLocally_recode (store : Store) (scope : FrameId) (name : String) :
    (store.recode code).bindsLocally scope name = store.bindsLocally scope name := by
  rw [bindsLocally, bindsLocally, local?_recode, Option.isSome_map]

theorem define_recode (store : Store) (scope : FrameId) (name : String) (value : Value) :
    (store.recode code).define scope name (value.recode code) =
      (store.define scope name value).recode code := by
  have frames : ((store.recode code).define scope name (value.recode code)).frames =
      ((store.define scope name value).recode code).frames := by
    apply Array.ext_getElem?
    intro place
    simp only [define, recode, Array.getElem?_modify, Array.getElem?_map]
    by_cases same : scope = place
    · simp only [same, if_true, Option.map_map]
      congr 1
      funext frame
      simp only [Function.comp_apply, Frame.recode, Dict.put_recode]
    · simp only [same, if_false]
  simp only [define, recode] at frames ⊢
  rw [frames]

theorem assign_recode (store : Store) (scope : FrameId) (name : String) (value : Value) :
    (store.recode code).assign scope name (value.recode code) =
      (store.assign scope name value).recode code := by
  rw [assign, owner?_recode, define_recode]
  rfl

/-! ## Objects in the store -/

theorem addFrame_recode (store : Store) (parent : Option FrameId) :
    (store.recode code).addFrame parent = (store.addFrame parent).recode code := by
  simp [addFrame, recode, Frame.recode, recodeEntries]

theorem addObject_recode (store : Store) (object : Object) :
    (store.recode code).addObject (object.recode code) = (store.addObject object).recode code := by
  simp [addObject, recode]

theorem nextObject_recode (store : Store) : (store.recode code).nextObject = store.nextObject :=
  Array.size_map

theorem nextFrame_recode (store : Store) : (store.recode code).nextFrame = store.nextFrame :=
  Array.size_map

theorem modifyObject_recode (store : Store) (id : ObjectId) {change change' : Object → Object}
    (changes : ∀ object, change' (object.recode code) = (change object).recode code) :
    (store.recode code).modifyObject id change' = (store.modifyObject id change).recode code := by
  have objects : ((store.recode code).modifyObject id change').objects =
      ((store.modifyObject id change).recode code).objects := by
    apply Array.ext_getElem?
    intro place
    simp only [modifyObject, recode, Array.getElem?_modify, Array.getElem?_map]
    by_cases same : id = place
    · simp only [same, if_true, Option.map_map]
      congr 1
      funext object
      exact changes object
    · simp only [same, if_false]
  simp only [modifyObject, recode] at objects ⊢
  rw [objects]

theorem getProperty_recode (store : Store) (value : Value) (key : String) :
    (store.recode code).getProperty (value.recode code) key =
      (store.getProperty value key).map (Value.recode code) := by
  have found (object : Object) : ((object.recode code).get? key).getD .undefined =
      ((object.get? key).getD .undefined).recode code := by
    rw [Object.get?_recode]
    cases object.get? key <;> rfl
  cases value with
  | object id =>
    simp only [Value.recode, getProperty, objectAt_recode, found]
    rfl
  | array id =>
    simp only [Value.recode, getProperty, objectAt_recode, found, Object.length_recode]
    by_cases isLength : key = "length"
    · simp only [isLength, if_true]
      rfl
    · simp only [isLength, if_false]
      rfl
  | _ => rfl

theorem setProperty_recode (store : Store) (target : Value) (key : String) (value : Value) :
    (store.recode code).setProperty (target.recode code) key (value.recode code) =
      (store.setProperty target key value).map (Store.recode code) := by
  unfold setProperty
  rw [Value.object?_recode, Value.typeName_recode]
  cases target.object? with
  | none => rfl
  | some id =>
    exact congrArg Except.ok (store.modifyObject_recode id fun object =>
      object.set_recode key value)

theorem deleteProperty_recode (store : Store) (target : Value) (key : String) :
    (store.recode code).deleteProperty (target.recode code) key =
      (store.deleteProperty target key).map (Prod.map id (Store.recode code)) := by
  unfold deleteProperty
  rw [Value.object?_recode, Value.typeName_recode]
  cases target.object? with
  | none => rfl
  | some id =>
    have removed : (store.recode code).modifyObject id (·.remove key) =
        (store.modifyObject id (·.remove key)).recode code :=
      store.modifyObject_recode id fun object => object.remove_recode key
    simp only [objectAt_recode, Object.contains_recode, removed]
    rfl

theorem hasProperty_recode (store : Store) (target : Value) (key : String) :
    (store.recode code).hasProperty (target.recode code) key = store.hasProperty target key := by
  cases target with
  | object id | array id =>
    simp only [Value.recode, hasProperty, objectAt_recode, Object.contains_recode]
  | _ => rfl

theorem spread_recode (store : Store) (value : Value) :
    (store.recode code).spread (value.recode code) =
      (store.spread value).map (List.map (Value.recode code)) := by
  cases value with
  | array id =>
    simp only [Value.recode, spread, objectAt_recode, Object.length_recode]
    split
    · rfl
    · exact congrArg Except.ok (Sparse.toList_recode (store.objectAt id).indexed)
  | _ => rfl

end Store

/-! ## Operators -/

namespace Value

theorem arithmetic_recode (operation : Float → Float → Float) (left right : Value) :
    (left.recode code).arithmetic operation (right.recode code) =
      (left.arithmetic operation right).map (recode code) := by
  simp only [arithmetic, toNumber_recode]
  cases left.toNumber <;> cases right.toNumber <;> rfl

theorem compare_recode (texts : String → String → Bool) (numbers : Float → Float → Bool)
    (left right : Value) :
    (left.recode code).compare texts numbers (right.recode code) =
      (left.compare texts numbers right).map (recode code) := by
  have compared : ∀ first second : Except Error Float,
      (do return Value.boolean (numbers (← first) (← second)) : Except Error Value) =
        (do return Value.boolean (numbers (← first) (← second)) : Except Error Value).map
          (recode code) := by
    intro first second
    cases first <;> cases second <;> rfl
  cases left with
  | string x =>
    cases right with
    | string y => rfl
    | _ => exact compared _ _
  | _ => cases right <;> exact compared _ _

theorem bitwise_recode (operation : UInt32 → UInt32 → UInt32) (left right : Value) :
    (left.recode code).bitwise operation (right.recode code) =
      (left.bitwise operation right).map (recode code) := by
  simp only [bitwise, toNumber_recode]
  cases left.toNumber <;> cases right.toNumber <;> rfl

theorem shift_recode {operation : Float → UInt32 → Value}
    (plain : ∀ number count, (operation number count).recode code = operation number count)
    (left right : Value) :
    (left.recode code).shift operation (right.recode code) =
      (left.shift operation right).map (recode code) := by
  simp only [shift, toNumber_recode]
  cases right.toNumber with
  | error error => rfl
  | ok count =>
    cases left.toNumber with
    | error error => rfl
    | ok number => exact congrArg Except.ok (plain number _).symm

theorem unary_recode (op : UnaryOp) (operand : Value) :
    (operand.recode code).unary op = (operand.unary op).map (recode code) := by
  cases op with
  | plus | minus | bitNot =>
    simp only [unary, toNumber_recode]
    cases operand.toNumber <;> rfl
  | not =>
    simp only [unary, isTruthy_recode]
    rfl
  | typeof =>
    simp only [unary, typeOf_recode]
    rfl
  | _ => rfl

end Value

theorem Store.add_recode (store : Store) (left right : Value) :
    (store.recode code).add (left.recode code) (right.recode code) =
      (store.add left right).map (Value.recode code) := by
  simp only [add, Value.isText_recode, display_recode, Value.arithmetic_recode]
  split <;> rfl

theorem Store.binary_recode (store : Store) (op : BinaryOp) (left right : Value) :
    (store.recode code).binary op (left.recode code) (right.recode code) =
      (store.binary op left right).map (Value.recode code) := by
  cases op with
  | add => exact store.add_recode left right
  | subtract | multiply | divide | remainder | power =>
    exact Value.arithmetic_recode _ left right
  | equal | notEqual =>
    simp only [binary, looseEquals_recode]
    rfl
  | strictEqual | strictNotEqual =>
    simp only [binary, Value.strictEquals_recode]
    rfl
  | lessThan | lessThanEqual | greaterThan | greaterThanEqual =>
    exact Value.compare_recode _ _ left right
  | bitAnd | bitOr | bitXor => exact Value.bitwise_recode _ left right
  | shiftLeft | shiftRight | unsignedShiftRight =>
    simp only [binary]
    apply Value.shift_recode
    intro number count
    rfl
  | logicalAnd | logicalOr =>
    simp only [binary, Value.isTruthy_recode]
    split <;> rfl
  | coalesce =>
    simp only [binary, Value.isNullish_recode]
    split <;> rfl
  | in_ =>
    simp only [binary, display_recode, hasProperty_recode]
    cases store.hasProperty right (store.display left) <;> rfl
  | instanceof => rfl

/-! ## References -/

namespace Reference

theorem get_recode (reference : Reference) (store : Store) :
    (reference.recode code).get (store.recode code) =
      (reference.get store).map (Value.recode code) := by
  cases reference with
  | variable_ scope name => exact store.lookup_recode scope name
  | property object key => exact store.getProperty_recode object key

theorem set_recode (reference : Reference) (store : Store) (value : Value) :
    (reference.recode code).set (store.recode code) (value.recode code) =
      (reference.set store value).map (Store.recode code) := by
  cases reference with
  | variable_ scope name => exact congrArg Except.ok (store.assign_recode scope name value)
  | property object key => exact store.setProperty_recode object key value

theorem delete_recode (reference : Reference) (store : Store) :
    (reference.recode code).delete (store.recode code) =
      (reference.delete store).map (Prod.map id (Store.recode code)) := by
  cases reference with
  | variable_ scope name => rfl
  | property object key =>
    simp only [recode, delete, Store.deleteProperty_recode]
    cases store.deleteProperty object key <;> rfl

end Reference

/-! ## Computations -/

def Machine.recode (code : Recoding) (machine : Machine) : Machine :=
  { machine with store := machine.store.recode code }

/-- An error without the text of a callee that is no function. -/
def Error.anonymous : Error → Error
  | .type (.notFunction _ found) => .type (.notFunction "" found)
  | error => error

namespace Eval

variable {α β γ δ : Type} {f : α → β} {g : γ → δ}

/-- How a computation ended, without the text of a callee that is no function. -/
def anonymous : EStateM.Result Error Machine α → EStateM.Result Error Machine α
  | .ok value machine => .ok value machine
  | .error error machine => .error error.anonymous machine

/-- How a computation ended, with changed code in its value and machine, and without the
text of a callee that is no function. -/
def recoded (code : Recoding) (f : α → β) :
    EStateM.Result Error Machine α → EStateM.Result Error Machine β
  | .ok value machine => .ok (f value) (machine.recode code)
  | .error error machine => .error error.anonymous (machine.recode code)

/-- Whether a computation does on machines with changed code what another one does on the
machines themselves. -/
def Recodes (code : Recoding) (f : α → β) (x : Eval α) (y : Eval β) : Prop :=
  ∀ machine, anonymous (y (machine.recode code)) = recoded code f (x machine)

theorem recodes_pure {value : α} {value' : β} (same : value' = f value) :
    Recodes code f (pure value) (pure value') := by
  intro machine
  rw [same]
  rfl

theorem recodes_throw {error error' : Error} (same : error'.anonymous = error.anonymous) :
    Recodes code f (throw error) (throw error') :=
  fun machine => congrArg (EStateM.Result.error · (machine.recode code)) same

/-- What a computation ended with, read off from how the other one ended. -/
theorem recoded_cases {result : EStateM.Result Error Machine α}
    {result' : EStateM.Result Error Machine β} (same : anonymous result' = recoded code f result) :
    (∃ value machine, result = .ok value machine ∧
        result' = .ok (f value) (machine.recode code)) ∨
      ∃ error error' machine, error'.anonymous = error.anonymous ∧
        result = .error error machine ∧ result' = .error error' (machine.recode code) := by
  cases result with
  | ok value machine =>
    cases result' with
    | ok value' machine' =>
      cases same
      exact .inl ⟨value, machine, rfl, rfl⟩
    | error error' machine' => cases same
  | error error machine =>
    cases result' with
    | ok value' machine' => cases same
    | error error' machine' =>
      injection same with sameError sameMachine
      exact .inr ⟨error, error', machine, sameError, rfl, sameMachine ▸ rfl⟩

theorem Recodes.bind {x : Eval α} {y : Eval β} {k : α → Eval γ} {l : β → Eval δ}
    (first : Recodes code f x y) (rest : ∀ value, Recodes code g (k value) (l (f value))) :
    Recodes code g (x >>= k) (y >>= l) := by
  intro machine
  rcases recoded_cases (first machine) with
    ⟨value, after, left, right⟩ | ⟨error, error', after, same, left, right⟩
  · simp only [Bind.bind, EStateM.bind, left, right]
    exact rest value after
  · simp only [Bind.bind, EStateM.bind, left, right]
    exact congrArg (EStateM.Result.error · _) same

theorem recodes_ofExcept {result : Except Error α} {result' : Except Error β}
    (same : result' = result.map f) : Recodes code f (ofExcept result) (ofExcept result') := by
  rw [same]
  cases result <;> intro machine <;> rfl

theorem recodes_reading {read : Store → Except Error α} {read' : Store → Except Error β}
    (same : ∀ store : Store, read' (store.recode code) = (read store).map f) :
    Recodes code f (reading read) (reading read') := by
  intro machine
  simp only [reading, Machine.recode, same]
  cases read machine.store <;> rfl

theorem recodes_changing {change : Store → α × Store} {change' : Store → β × Store}
    (same : ∀ store : Store,
      change' (store.recode code) = Prod.map f (Store.recode code) (change store)) :
    Recodes code f (changing change) (changing change') := by
  intro machine
  simp only [changing, Machine.recode, same]
  rfl

theorem recodes_attempting {change : Store → Except Error (α × Store)}
    {change' : Store → Except Error (β × Store)}
    (same : ∀ store : Store,
      change' (store.recode code) = (change store).map (Prod.map f (Store.recode code))) :
    Recodes code f (attempting change) (attempting change') := by
  intro machine
  simp only [attempting, Machine.recode, same]
  cases change machine.store <;> rfl

theorem Recodes.withCall {x : Eval α} {y : Eval β} (limit : Nat) (body : Recodes code f x y) :
    Recodes code f (withCall limit x) (withCall limit y) := by
  intro machine
  by_cases full : limit ≤ machine.openCalls
  · simp only [Eval.withCall, Machine.recode, full, if_true]
    rfl
  · have step := recoded_cases (body { machine with openCalls := machine.openCalls + 1 })
    simp only [Eval.withCall, Machine.recode, full, if_false] at step ⊢
    rcases step with ⟨value, after, left, right⟩ | ⟨error, error', after, same, left, right⟩
    · simp only [left, right]
      rfl
    · simp only [left, right]
      exact congrArg (EStateM.Result.error · _) same

/-! ## Operations on the machine -/

theorem recodes_lookup (scope : FrameId) (name : String) :
    Recodes code (Value.recode code) (lookup scope name) (lookup scope name) :=
  recodes_reading fun store => store.lookup_recode scope name

theorem recodes_binds (scope : FrameId) (name : String) :
    Recodes code id (binds scope name) (binds scope name) :=
  recodes_reading fun store => congrArg Except.ok (store.binds_recode scope name)

theorem recodes_bindsLocally (scope : FrameId) (name : String) :
    Recodes code id (bindsLocally scope name) (bindsLocally scope name) :=
  recodes_reading fun store => congrArg Except.ok (store.bindsLocally_recode scope name)

theorem recodes_define (scope : FrameId) (name : String) (value : Value) :
    Recodes code id (define scope name value) (define scope name (value.recode code)) :=
  recodes_changing fun store => congrArg (Prod.mk ()) (store.define_recode scope name value)

theorem recodes_newScope (parent : FrameId) :
    Recodes code id (newScope parent) (newScope parent) :=
  recodes_changing fun store =>
    congrArg₂ Prod.mk store.nextFrame_recode (store.addFrame_recode (some parent))

theorem recodes_newObject (object : Object) :
    Recodes code (Value.recode code) (newObject object) (newObject (object.recode code)) :=
  recodes_changing fun store =>
    congrArg₂ (fun id after => (Value.object id, after)) store.nextObject_recode
      (store.addObject_recode object)

theorem recodes_newArray (items : List (Option Value)) :
    Recodes code (Value.recode code) (newArray items)
      (newArray (items.map (Option.map (Value.recode code)))) := by
  rw [newArray_eq, newArray_eq, List.length_map]
  split
  · apply recodes_changing
    intro store
    rw [Object.ofElements_recode, Store.addObject_recode, Store.nextObject_recode]
    rfl
  · exact recodes_throw rfl

theorem recodes_newFunction (function : Function) :
    Recodes code (Value.recode code) (newFunction function)
      (newFunction (function.recode code)) :=
  recodes_changing fun _ => rfl

theorem recodes_getProperty (value : Value) (key : String) :
    Recodes code (Value.recode code) (getProperty value key)
      (getProperty (value.recode code) key) :=
  recodes_reading fun store => store.getProperty_recode value key

theorem recodes_properties (value : Value) :
    Recodes code (Object.recode code) (properties value) (properties (value.recode code)) := by
  apply recodes_reading
  intro store
  rw [Value.object?_recode]
  cases value.object? with
  | none => rfl
  | some id => exact congrArg Except.ok (store.objectAt_recode id)

theorem recodes_spread (value : Value) :
    Recodes code (List.map (Value.recode code)) (spread value) (spread (value.recode code)) :=
  recodes_reading fun store => store.spread_recode value

theorem recodes_getReference (reference : Reference) :
    Recodes code (Value.recode code) (getReference reference)
      (getReference (reference.recode code)) :=
  recodes_reading fun store => reference.get_recode store

theorem recodes_setReference (reference : Reference) (value : Value) :
    Recodes code id (setReference reference value)
      (setReference (reference.recode code) (value.recode code)) := by
  apply recodes_attempting
  intro store
  rw [Reference.set_recode]
  cases reference.set store value <;> rfl

theorem recodes_deleteReference (reference : Reference) :
    Recodes code id (deleteReference reference) (deleteReference (reference.recode code)) :=
  recodes_attempting fun store => reference.delete_recode store

theorem recodes_display (value : Value) :
    Recodes code id (display value) (display (value.recode code)) :=
  recodes_reading fun store => congrArg Except.ok (store.display_recode value)

theorem recodes_binary (op : BinaryOp) (left right : Value) :
    Recodes code (Value.recode code) (binary op left right)
      (binary op (left.recode code) (right.recode code)) :=
  recodes_reading fun store => store.binary_recode op left right

theorem recodes_unary (op : UnaryOp) (operand : Value) :
    Recodes code (Value.recode code) (unary op operand) (unary op (operand.recode code)) :=
  recodes_ofExcept (operand.unary_recode op)

theorem recodes_toNumber (value : Value) :
    Recodes code id (toNumber value) (toNumber (value.recode code)) := by
  apply recodes_ofExcept
  rw [Value.toNumber_recode]
  cases value.toNumber <;> rfl

/-- Output does not depend on the code that is stored. -/
theorem recodes_writeLine (line : String) : Recodes code id (writeLine line) (writeLine line) := by
  intro machine
  simp only [writeLine, Machine.recode]
  cases machine.sink.log line with
  | mk refused sink => cases refused <;> rfl

theorem recodes_writeLines (lines : List String) :
    Recodes code id (lines.forM writeLine) (lines.forM writeLine) := by
  induction lines with
  | nil => exact recodes_pure rfl
  | cons line rest ih => exact (recodes_writeLine line).bind fun _ => ih

/-- A function of the host does the same, because its arguments look the same. -/
theorem recodes_callNative (behaviour : Callback) (arguments : List Value) :
    Recodes code (Value.recode code) (callNative behaviour arguments)
      (callNative behaviour (arguments.map (Value.recode code))) := by
  have looks : Recodes code id
      (reading fun store => .ok (behaviour (arguments.map store.look)))
      (reading fun store =>
        .ok (behaviour ((arguments.map (Value.recode code)).map store.look))) := by
    apply recodes_reading
    intro store
    simp only [List.map_map, Function.comp_def, Store.look_recode]
    rfl
  refine looks.bind fun deed => (recodes_writeLines deed.lines).bind fun _ => recodes_ofExcept ?_
  rw [id_eq]
  cases deed.answer with
  | error error => rfl
  | ok answer => exact congrArg Except.ok (answer.value_recode arguments)

end Eval
end Scriptlet
