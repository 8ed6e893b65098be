import Scriptlet.Proofs.Literals

/-!
# Array literals and arguments

The elements of an array literal expand to items, from left to right: an expression gives one, a
hole one that is absent, and a spread as many as the array has places at that moment, where a
hole of that array gives undefined. The new array has each item that is present at its place.
Arguments of a call expand in the same way, and the function receives the items in order. Only
arrays of at most `2 ^ 24` places can be spread.

* `Items`: what elements expand to;
* `evalElements_eq_ok_iff`: elements are evaluated to what they expand to;
* `evalElements_arguments`: so are arguments.
-/

namespace Scriptlet

open Eval

/-! ## Spreading an array -/

namespace Sparse

variable {α : Type} {sparse : Sparse α}

/-- Filling goes on where the items end. -/
theorem toList_fillFrom (absent : α) (ascending : sparse.Pairwise fun one next => one.1 < next.1)
    {items : Array α} (start : ∀ entry ∈ sparse, items.size ≤ entry.1) :
    (fillFrom absent items sparse).toList =
      items.toList ++ (sparse.contentsFrom items.size).map (·.getD absent) := by
  induction sparse generalizing items with
  | nil => simp [fillFrom, contentsFrom_nil]
  | cons entry rest ih =>
    obtain ⟨index, value⟩ := entry
    obtain ⟨above, ascending⟩ := List.pairwise_cons.mp ascending
    have le : items.size ≤ index := start _ List.mem_cons_self
    have size : ((items ++ Array.replicate (index - items.size) absent).push value).size =
        index + 1 := by
      simp
      omega
    rw [fillFrom, ih ascending (size ▸ above), size, contentsFrom_cons above le]
    simp

theorem toList_eq (absent : α) (ascending : sparse.Pairwise fun one next => one.1 < next.1) :
    sparse.toList absent = (List.range sparse.length).map fun index =>
      (sparse.get? index).getD absent := by
  rw [toList, toList_fillFrom absent ascending fun _ _ => Nat.zero_le _, contentsFrom]
  simp [List.range_eq_range']

end Sparse

namespace Store

/-- Whether values are what an array gives where it is spread: one for each of its places, and
undefined for a hole. -/
structure Spreads (store : Store) (id : ObjectId) (values : List Value) : Prop where
  short : (store.objectAt id).length ≤ 16777216
  length : values.length = (store.objectAt id).length
  each : ∀ index < values.length,
    values[index]? = some (((store.objectAt id).getKey? (.index index)).getD .undefined)

/-- Why a value cannot be spread. -/
inductive SpreadFault (store : Store) : Value → TypeFault → Prop where
  | other {value : Value} (other : ∀ id, value ≠ .array id) :
      SpreadFault store value (.notIterable value.typeName)
  | long {id : ObjectId} (long : 16777216 < (store.objectAt id).length) :
      SpreadFault store (.array id) (.spreadTooLong (store.objectAt id).length)

variable {store : Store} {value : Value} {values : List Value} {id : ObjectId}

theorem Canonical.spreads_toList (canonical : store.Canonical)
    (short : (store.objectAt id).length ≤ 16777216) :
    store.Spreads id ((store.objectAt id).indexed.toList .undefined) := by
  have length := Object.length_eq (canonical id).ascending (canonical id).indices
  rw [Sparse.toList_eq _ (canonical id).ascending, ← length]
  refine ⟨short, by simp, fun index below => ?_⟩
  rw [List.length_map, List.length_range] at below
  rw [List.getElem?_map, List.getElem?_range below]
  rfl

theorem Spreads.unique {others : List Value} (spreads : store.Spreads id values)
    (spreads' : store.Spreads id others) : values = others := by
  have lengths := spreads.length.trans spreads'.length.symm
  apply List.ext_getElem?
  intro index
  by_cases below : index < values.length
  · rw [spreads.each index below, spreads'.each index (lengths ▸ below)]
  · rw [List.getElem?_eq_none (Nat.le_of_not_lt below),
      List.getElem?_eq_none (lengths ▸ Nat.le_of_not_lt below)]

theorem Canonical.spread_eq_ok_iff (canonical : store.Canonical) :
    store.spread value = .ok values ↔ ∃ id, value = .array id ∧ store.Spreads id values := by
  cases value with
  | array id =>
    have short_iff : ¬ maxSpread < (store.objectAt id).length ↔
        (store.objectAt id).length ≤ 16777216 := Nat.not_lt
    unfold spread
    dsimp only
    split
    · next long =>
      refine ⟨nofun, ?_⟩
      rintro ⟨_, ⟨⟩, spreads⟩
      exact absurd long (short_iff.mpr spreads.short)
    · next short =>
      have found := canonical.spreads_toList (short_iff.mp short)
      constructor
      · rintro ⟨⟩
        exact ⟨id, rfl, found⟩
      · rintro ⟨_, ⟨⟩, spreads⟩
        rw [spreads.unique found]
  | _ =>
    refine ⟨nofun, ?_⟩
    rintro ⟨_, ⟨⟩, -⟩

theorem SpreadFault.spread {fault : TypeFault} (refused : store.SpreadFault value fault) :
    store.spread value = .error (.type fault) := by
  cases refused with
  | other other =>
    cases value with
    | array id => exact absurd rfl (other id)
    | _ => rfl
  | long long => exact if_pos long

/-- A value can be spread, or there is a reason why not. -/
theorem Canonical.spreads_or_fault (canonical : store.Canonical) (value : Value) :
    (∃ id values, value = .array id ∧ store.Spreads id values) ∨
      ∃ fault, store.SpreadFault value fault := by
  cases value with
  | array id =>
    by_cases long : 16777216 < (store.objectAt id).length
    · exact .inr ⟨_, .long long⟩
    · exact .inl ⟨id, _, rfl, canonical.spreads_toList (Nat.le_of_not_lt long)⟩
  | _ => exact .inr ⟨_, .other nofun⟩

end Store

/-! ## What elements expand to -/

namespace Eval

/-- The items that elements expand to, as they are evaluated one after the other. -/
inductive Items (call : Call) (scope : FrameId) :
    Machine → List Element → List (Option Value) → Machine → Prop where
  | nil (machine : Machine) : Items call scope machine [] [] machine
  | hole {machine after : Machine} {rest : List Element} {items : List (Option Value)}
      (more : Items call scope machine rest items after) :
      Items call scope machine (.hole :: rest) (none :: items) after
  | item {machine next after : Machine} {expr : Expr} {value : Value} {rest : List Element}
      {items : List (Option Value)} (evaluates : evalExpr call scope expr machine = .ok value next)
      (more : Items call scope next rest items after) :
      Items call scope machine (.item expr :: rest) (some value :: items) after
  | spread {machine next after : Machine} {expr : Expr} {id : ObjectId} {values : List Value}
      {rest : List Element} {items : List (Option Value)}
      (evaluates : evalExpr call scope expr machine = .ok (.array id) next)
      (spreads : next.store.Spreads id values)
      (more : Items call scope next rest items after) :
      Items call scope machine (.spread expr :: rest) (values.map some ++ items) after

variable {call : Call} {scope : FrameId} {machine middle after : Machine}
  {elements before rest : List Element} {items : List (Option Value)}

theorem reading_of_error {α : Type} {read : Store → Except Error α} {error : Error}
    (answers : read machine.store = .error error) :
    reading read machine = .error error machine := by
  unfold reading
  rw [answers]

theorem Items.evalElements (keeps : KeepsCanonical call) (canonical : machine.store.Canonical)
    (expands : Items call scope machine elements items after) :
    evalElements call scope elements machine = .ok items after := by
  induction expands with
  | nil => rfl
  | hole _ ih =>
    rw [Eval.evalElements, bind_of_ok (ih canonical)]
    rfl
  | item evaluates _ ih =>
    rw [Eval.evalElements, bind_of_ok evaluates, bind_of_ok (ih (keeps.expr canonical evaluates))]
    rfl
  | @spread machine next after expr id values rest items evaluates spreads _ ih =>
    have here := keeps.expr canonical evaluates
    have spread : Eval.spread (.array id) next = .ok values next :=
      reading_of_ok (here.spread_eq_ok_iff.mpr ⟨id, rfl, spreads⟩)
    rw [Eval.evalElements, bind_of_ok evaluates, bind_of_ok spread, bind_of_ok (ih here)]
    rfl

theorem items_of_evalElements (keeps : KeepsCanonical call)
    (canonical : machine.store.Canonical)
    (evaluates : evalElements call scope elements machine = .ok items after) :
    Items call scope machine elements items after := by
  induction elements generalizing machine items with
  | nil =>
    cases evaluates
    exact .nil _
  | cons first rest ih =>
    cases first with
    | hole =>
      rw [evalElements] at evaluates
      obtain ⟨others, _, more, last⟩ := bind_eq_ok evaluates
      cases last
      exact .hole (ih canonical more)
    | item expr =>
      rw [evalElements] at evaluates
      obtain ⟨value, next, here, evaluates⟩ := bind_eq_ok evaluates
      obtain ⟨others, _, more, last⟩ := bind_eq_ok evaluates
      cases last
      exact .item here (ih (keeps.expr canonical here) more)
    | spread expr =>
      rw [evalElements] at evaluates
      obtain ⟨value, next, here, evaluates⟩ := bind_eq_ok evaluates
      obtain ⟨values, _, spread, evaluates⟩ := bind_eq_ok evaluates
      obtain ⟨others, _, more, last⟩ := bind_eq_ok evaluates
      cases last
      obtain ⟨found, rfl⟩ := reading_eq_ok spread
      have canonical := keeps.expr canonical here
      obtain ⟨id, rfl, spreads⟩ := canonical.spread_eq_ok_iff.mp found
      exact .spread here spreads (ih canonical more)

/-- Elements are evaluated to what they expand to. -/
theorem evalElements_eq_ok_iff (keeps : KeepsCanonical call)
    (canonical : machine.store.Canonical) :
    evalElements call scope elements machine = .ok items after ↔
      Items call scope machine elements items after :=
  ⟨items_of_evalElements keeps canonical, Items.evalElements keeps canonical⟩

/-- Where a value cannot be spread, the elements behind it are not evaluated. -/
theorem Items.evalElements_fault (keeps : KeepsCanonical call)
    (canonical : machine.store.Canonical)
    (expands : Items call scope machine before items middle) {expr : Expr} {value : Value}
    (evaluates : evalExpr call scope expr middle = .ok value after) {fault : TypeFault}
    (refused : after.store.SpreadFault value fault) (rest : List Element) :
    Eval.evalElements call scope (before ++ .spread expr :: rest) machine =
      .error (.type fault) after := by
  induction expands with
  | nil machine =>
    have spread : Eval.spread value after = .error (.type fault) after :=
      reading_of_error refused.spread
    rw [List.nil_append, Eval.evalElements, bind_of_ok evaluates, bind_of_error spread]
  | hole _ ih =>
    rw [List.cons_append, Eval.evalElements, bind_of_error (ih canonical evaluates)]
  | item here _ ih =>
    rw [List.cons_append, Eval.evalElements, bind_of_ok here,
      bind_of_error (ih (keeps.expr canonical here) evaluates)]
  | @spread machine next after' expr' id values rest' items here spreads _ ih =>
    have canonical := keeps.expr canonical here
    have spread : Eval.spread (.array id) next = .ok values next :=
      reading_of_ok (canonical.spread_eq_ok_iff.mpr ⟨id, rfl, spreads⟩)
    rw [List.cons_append, Eval.evalElements, bind_of_ok here, bind_of_ok spread,
      bind_of_error (ih canonical evaluates)]

end Eval

/-! ## Arguments -/

/-- The element of an array literal that expands like an argument. -/
def Argument.element (argument : Argument) : Element :=
  if argument.spread then .spread argument.expr else .item argument.expr

namespace Eval

variable {call : Call} {scope : FrameId} {machine middle after : Machine}

/-- Arguments are evaluated like the elements of an array literal. -/
theorem evalElements_arguments (call : Call) (scope : FrameId) (arguments : List Argument) :
    evalElements call scope (arguments.map Argument.element) =
      (·.map some) <$> evalArguments call scope arguments := by
  induction arguments with
  | nil => rfl
  | cons first rest ih =>
    obtain ⟨spread, expr⟩ := first
    cases spread with
    | true => simp [Argument.element, evalElements, evalArguments, ih]
    | false => simp [Argument.element, evalElements, evalArguments, ih]

theorem evalArguments_eq_ok_iff (keeps : KeepsCanonical call)
    (canonical : machine.store.Canonical) {arguments : List Argument} {values : List Value} :
    evalArguments call scope arguments machine = .ok values after ↔
      Items call scope machine (arguments.map Argument.element) (values.map some) after := by
  rw [← evalElements_eq_ok_iff keeps canonical, evalElements_arguments, map_eq_pure_bind]
  constructor
  · intro evaluates
    rw [bind_of_ok evaluates]
    rfl
  · intro evaluates
    obtain ⟨others, middle, found, last⟩ := bind_eq_ok evaluates
    have result : EStateM.Result.ok (others.map some) middle = .ok (values.map some) after := last
    obtain ⟨same, rfl⟩ := EStateM.Result.ok.inj result
    rwa [(List.map_inj_right fun _ _ => Option.some.inj).mp same] at found

theorem evalArguments_fault (keeps : KeepsCanonical call) (canonical : machine.store.Canonical)
    {before : List Argument} {values : List Value}
    (expands : Items call scope machine (before.map Argument.element) (values.map some) middle)
    {expr : Expr} {value : Value}
    (evaluates : evalExpr call scope expr middle = .ok value after) {fault : TypeFault}
    (refused : after.store.SpreadFault value fault) (rest : List Argument) :
    evalArguments call scope (before ++ ⟨true, expr⟩ :: rest) machine =
      .error (.type fault) after := by
  have fails := expands.evalElements_fault keeps canonical evaluates refused
    (rest.map Argument.element)
  have same : before.map Argument.element ++ .spread expr :: rest.map Argument.element =
      (before ++ ⟨true, expr⟩ :: rest).map Argument.element := by
    rw [List.map_append]
    rfl
  rw [same, evalElements_arguments, map_eq_pure_bind] at fails
  cases found : evalArguments call scope (before ++ ⟨true, expr⟩ :: rest) machine with
  | ok values last =>
    rw [bind_of_ok found] at fails
    cases fails
  | error error last =>
    rw [bind_of_error found] at fails
    cases fails
    rfl

/-- The calls that go to a function, with the receiver that they tell it, and the machine on
which their arguments are evaluated. -/
inductive Invokes (call : Call) (scope : FrameId) (machine : Machine) :
    (List Argument → Expr) → Function → Option Value → Machine → Prop where
  | plain {callee : Expr} {id : Nat} {function : Function} {receiver : Option Value}
      {after : Machine} (resolves : evalCallee call scope callee machine =
        .ok (some ⟨.function id function, receiver⟩) after) :
      Invokes call scope machine (.call callee) function receiver after
  | optional {callee : Expr} {id : Nat} {function : Function} {after : Machine}
      (evaluates : evalExpr call scope callee machine = .ok (.function id function) after) :
      Invokes call scope machine (fun arguments => .optional callee (.call arguments)) function
        none after

variable {form : List Argument → Expr} {function : Function} {receiver : Option Value}

theorem Invokes.evalExpr (invokes : Invokes call scope machine form function receiver middle)
    (arguments : List Argument) :
    evalExpr call scope (form arguments) machine =
      (evalArguments call scope arguments >>= call function receiver) middle := by
  cases invokes with
  | plain resolves => exact evalExpr_call_of_function arguments resolves
  | optional evaluates => exact evalExpr_optionalCall_of_function arguments evaluates

theorem Invokes.canonical (keeps : KeepsCanonical call) (canonical : machine.store.Canonical)
    (invokes : Invokes call scope machine form function receiver middle) :
    middle.store.Canonical := by
  cases invokes with
  | @plain callee id _ _ _ resolves =>
    have evaluates : Eval.evalExpr call scope callee machine =
        .ok (.function id function) middle := by
      rw [evalExpr_eq_evalCallee, map_eq_pure_bind, bind_of_ok resolves]
      rfl
    exact keeps.expr canonical evaluates
  | optional evaluates => exact keeps.expr canonical evaluates

end Eval

/-! ## New arrays -/

/-- Whether an object has the items that are present, each at its place, and nothing else. -/
structure Object.LaysOut (object : Object) (items : List (Option Value)) : Prop where
  places : ∀ index, object.getKey? (.index index) = items[index]?.join
  named : object.named = []
  length : (∀ item ∈ items, item = none) ∧ object.length = 0 ∨
    ∃ last value, items[last]? = some (some value) ∧ object.length = last + 1 ∧
      ∀ index value, items[index]? = some (some value) → index ≤ last

theorem Object.laysOut_ofElements {items : List (Option Value)}
    (few : items.length ≤ Key.indexBound) : (Object.ofElements items).LaysOut items := by
  have canonical := Object.Canonical.ofElements few
  have length := Object.length_eq canonical.ascending canonical.indices
  obtain ⟨above, reached⟩ := Sparse.length_spec canonical.ascending
  rw [← length] at above reached
  have below {index : Nat} {value : Value} (present : items[index]? = some (some value)) :
      index < (Object.ofElements items).length :=
    above (index, value) (Sparse.mem_ofList_iff.mpr present)
  refine ⟨fun index => ?_, rfl, ?_⟩
  · apply Option.ext
    intro value
    rw [Option.join_eq_some_iff, ← Sparse.mem_ofList_iff]
    exact find?_key_eq_some_iff canonical.nodup_indices
  · rcases reached with none | ⟨⟨last, value⟩, member, one⟩
    · refine .inl ⟨fun item member => ?_, none⟩
      obtain ⟨index, isItem⟩ := List.mem_iff_getElem?.mp member
      cases item with
      | none => rfl
      | some value =>
        have := below isItem
        omega
    · refine .inr ⟨last, value, Sparse.mem_ofList_iff.mp member, one, fun index value present => ?_⟩
      have := below present
      omega

/-- How array literals and arguments are evaluated from a machine on. -/
structure Eval.ExpandsInPlace (call : Call) (scope : FrameId) (machine : Machine) : Prop where
  /-- A new array has the items that its elements expand to at their places. -/
  literal : ∀ elements value after,
    evalExpr call scope (.array elements) machine = .ok value after →
    ∃ items middle object, Items call scope machine elements items middle ∧
      object.LaysOut items ∧ value = .array middle.store.nextObject ∧
      after = { middle with store := middle.store.addObject object }
  /-- Elements that expand to no more items than there are indices make an array. -/
  succeeds : ∀ elements items middle, Items call scope machine elements items middle →
    items.length ≤ 4294967295 →
    ∃ value after, evalExpr call scope (.array elements) machine = .ok value after
  /-- A function receives the items that its arguments expand to. -/
  passes : ∀ form function receiver (arguments : List Argument) middle (values : List Value) last,
    Invokes call scope machine form function receiver middle →
    Items call scope middle (arguments.map Argument.element) (values.map some) last →
    evalExpr call scope (form arguments) machine = call function receiver values last
  received : ∀ form function receiver (arguments : List Argument) middle result after,
    Invokes call scope machine form function receiver middle →
    evalExpr call scope (form arguments) machine = .ok result after →
    ∃ (values : List Value) (last : Machine),
      Items call scope middle (arguments.map Argument.element) (values.map some) last ∧
      call function receiver values last = .ok result after
  /-- A spread of anything but an array, or of an array that is too long, is a type error. -/
  literalFault : ∀ before expr rest items middle value last fault,
    Items call scope machine before items middle →
    evalExpr call scope expr middle = .ok value last → last.store.SpreadFault value fault →
    evalExpr call scope (.array (before ++ .spread expr :: rest)) machine =
      .error (.type fault) last
  callFault : ∀ form function receiver start (before : List Argument) expr rest
      (values : List Value) middle value last fault,
    Invokes call scope machine form function receiver start →
    Items call scope start (before.map Argument.element) (values.map some) middle →
    evalExpr call scope expr middle = .ok value last → last.store.SpreadFault value fault →
    evalExpr call scope (form (before ++ ⟨true, expr⟩ :: rest)) machine =
      .error (.type fault) last

namespace Eval

variable {call : Call} {scope : FrameId} {machine after : Machine}

theorem newArray_of_few {items : List (Option Value)} (few : items.length ≤ Key.indexBound)
    (machine : Machine) :
    newArray items machine = .ok (.array machine.store.nextObject)
      { machine with store := machine.store.addObject (.ofElements items) } := by
  rw [newArray_eq, if_pos few]
  rfl

theorem newArray_eq_ok {items : List (Option Value)} {value : Value}
    (makes : newArray items machine = .ok value after) :
    items.length ≤ Key.indexBound ∧ value = .array machine.store.nextObject ∧
      after = { machine with store := machine.store.addObject (.ofElements items) } := by
  by_cases few : items.length ≤ Key.indexBound
  · rw [newArray_of_few few] at makes
    cases makes
    exact ⟨few, rfl, rfl⟩
  · rw [newArray_eq, if_neg few] at makes
    cases makes

theorem expandsInPlace (keeps : KeepsCanonical call) (canonical : machine.store.Canonical) :
    ExpandsInPlace call scope machine where
  literal elements value after evaluates := by
    rw [evalExpr] at evaluates
    obtain ⟨items, middle, found, makes⟩ := bind_eq_ok evaluates
    obtain ⟨few, rfl, rfl⟩ := newArray_eq_ok makes
    exact ⟨items, middle, _, items_of_evalElements keeps canonical found,
      Object.laysOut_ofElements few, rfl, rfl⟩
  succeeds elements items middle expands few := by
    rw [evalExpr, bind_of_ok (expands.evalElements keeps canonical), newArray_of_few few]
    exact ⟨_, _, rfl⟩
  passes form function receiver arguments middle values last invokes expands := by
    have here := invokes.canonical keeps canonical
    rw [invokes.evalExpr, bind_of_ok ((evalArguments_eq_ok_iff keeps here).mpr expands)]
  received form function receiver arguments middle result after invokes evaluates := by
    have here := invokes.canonical keeps canonical
    rw [invokes.evalExpr] at evaluates
    obtain ⟨values, last, found, calls⟩ := bind_eq_ok evaluates
    exact ⟨values, last, (evalArguments_eq_ok_iff keeps here).mp found, calls⟩
  literalFault before expr rest items middle value last fault expands evaluates refused := by
    rw [evalExpr, bind_of_error
      (expands.evalElements_fault keeps canonical evaluates refused rest)]
  callFault form function receiver start before expr rest values middle value last fault invokes
      expands evaluates refused := by
    have here := invokes.canonical keeps canonical
    rw [invokes.evalExpr,
      bind_of_error (evalArguments_fault keeps here expands evaluates refused rest)]

end Eval

/-- Array literals put every item that their elements expand to at its place, and functions
receive the items that their arguments expand to, in order. What cannot be spread is a type
error: everything but arrays of at most `2 ^ 24` places. This is so of canonical stores. Every
store is canonical that scripts leave, and stays so while expressions and statements are
evaluated. -/
theorem literals_expand_in_place :
    (∀ (limit room : Nat) (scope : FrameId) (machine : Machine), machine.store.Canonical →
      ExpandsInPlace (callFunction limit room) scope machine ∧
        ∀ value, (∃ id values, value = .array id ∧ machine.store.Spreads id values) ∨
          ∃ fault, machine.store.SpreadFault value fault) ∧
      (∀ limit room : Nat, KeepsCanonical (callFunction limit room)) ∧
      ∀ (limit : Nat) (sink : Sink) (codes : List String),
        ((Engine.new limit sink).afterAll codes).machine.store.Canonical := by
  refine ⟨fun limit room scope machine canonical => ⟨?_, ?_⟩, keepsCanonical_callFunction,
    Engine.afterAll_canonical⟩
  · exact expandsInPlace (keepsCanonical_callFunction limit room) canonical
  · exact canonical.spreads_or_fault

/-- The elements of `[, ...[null, , true], ,]`. -/
def holedElements : List Element :=
  [.hole, .spread (.array [.item .null, .hole, .item (.boolean true)]), .hole]

/-- The hole of the inner array becomes undefined, the first hole stays and the last one does
not count. Null cannot be spread. -/
theorem holedElements_expand :
    idleMachine.store.Canonical ∧
      (∃ items middle object after,
        Items (callFunction 4 2) Engine.global idleMachine holedElements items middle ∧
        object.LaysOut items ∧
        evalExpr (callFunction 4 2) Engine.global (.array holedElements) idleMachine =
          .ok (.array 2) after ∧
        after.store.objectAt 2 = object ∧
        after.store.display (.array 2) = "[ <1 empty item>, null, undefined, true ]") ∧
      evalExpr (callFunction 4 2) Engine.global (.array [.spread .null]) idleMachine =
        .error (.type (.notIterable "null")) idleMachine := by
  have canonical : idleMachine.store.Canonical := Engine.afterAll_canonical 4 .unlimited []
  obtain ⟨expands, -⟩ := literals_expand_in_place.1 4 2 Engine.global idleMachine canonical
  have evaluates : evalExpr (callFunction 4 2) Engine.global (.array holedElements) idleMachine =
      .ok (.array 2) _ := rfl
  obtain ⟨items, middle, object, isItems, laysOut, isArray, isAfter⟩ :=
    expands.literal _ _ _ evaluates
  have next : middle.store.nextObject = 2 := (Value.array.inj isArray).symm
  refine ⟨canonical, ⟨items, middle, object, _, isItems, laysOut, evaluates, ?_, ?_⟩, ?_⟩
  · rw [isAfter, Store.objectAt_addObject, if_pos next.symm]
  · decide +kernel
  · exact expands.literalFault [] .null [] [] idleMachine .null idleMachine _ (.nil _) rfl
      (.other nofun)

end Scriptlet
