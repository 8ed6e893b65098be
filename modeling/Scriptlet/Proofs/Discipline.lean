import Scriptlet.Eval.Stmt
import Scriptlet.Proofs.Canonical
import Scriptlet.Proofs.Footing

/-!
# Disciplines of evaluation

A discipline relates computations. It is closed under sequencing and under the few
operations that touch a store; then it relates the evaluation of every tree under one way
of calling functions to its evaluation under another, if it relates the two ways. Properties
of one run and of two runs are both disciplines.
-/

namespace Scriptlet

open Eval

/-- What evaluation takes for granted of a node: assignments go to targets, and declared
functions have names. -/
def Node.Executable : Node → Prop
  | .expr (.assign target _) | .expr (.assignWith _ target _) | .expr (.update _ _ target) =>
    target.isTarget = true
  | .stmt (.function definition) => definition.name.isSome = true
  | _ => True

/-- Calls a function of the host, where how a line is written is up to `write`. -/
def Eval.callNativeBy (write : String → Eval Unit) (behaviour : Callback)
    (arguments : List Value) : Eval Value := do
  let deed ← reading fun store => .ok (behaviour (arguments.map store.look))
  deed.lines.forM write
  ofExcept (deed.answer.map (Answer.value arguments))

/-- The machine that a computation leaves, whether it failed or not. -/
def machineAfter {α : Type} : EStateM.Result Error Machine α → Machine
  | .ok _ machine | .error _ machine => machine

/-- A property of stores that evaluation keeps, while the footing grows. -/
structure Store.Invariant (node : Node → Prop) (holds : Footing → Store → Prop) : Prop where
  known : ∀ {footing store}, holds footing store → store.Known node footing
  define : ∀ {footing store scope value}, holds footing store → footing.frame scope →
    value.Known node footing → ∀ name, holds footing (store.define scope name value)
  addFrame : ∀ {footing store parent}, holds footing store → footing.frame parent →
    holds (footing.withFrame store.nextFrame) (store.addFrame (some parent))
  addObject : ∀ {footing store object}, holds footing store → object.Known node footing →
    object.Canonical → holds (footing.withObject store.nextObject) (store.addObject object)
  addArray : ∀ {footing store object}, holds footing store → object.Known node footing →
    object.Canonical → holds (footing.withArray store.nextObject) (store.addObject object)
  addFunction : ∀ {footing store}, holds footing store → holds footing store.addFunction
  setProperty : ∀ {footing store id value}, holds footing store → footing.place id →
    value.Known node footing → ∀ key, holds footing (store.modifyObject id (·.set key value))
  removeProperty : ∀ {footing store id}, holds footing store → footing.place id →
    ∀ key, holds footing (store.modifyObject id (·.remove key))

/-- That known places lead only to known places is itself kept. -/
theorem Store.Known.invariant (node : Node → Prop) :
    Store.Invariant node fun footing store => store.Known node footing where
  known holds := holds
  define holds _ new name := holds.define _ name new
  addFrame holds place := holds.addFrame fun _ isOuter => Option.some.inj isOuter ▸ place
  addObject holds new _ := holds.addObject new
  addArray holds new _ := holds.addArray new
  addFunction holds := holds.addFunction
  setProperty holds _ new key := holds.modifyObject _ fun _ known => known.set key new
  removeProperty holds _ key := holds.modifyObject _ fun _ known => known.remove key

/-- Which trees are evaluated, which errors may come of it, and what the store keeps to. -/
structure Regime where
  node : Node → Prop
  raises : Error → Prop
  arises : ∀ {error : Error}, error.Arises → raises error
  /-- Either the trees are well-formed, or errors about malformed trees are allowed. -/
  wellFormed :
    (∀ n, node n → n.Executable) ∨ ∀ error : Error, error.isInternal = true → raises error
  store : Footing → Store → Prop
  invariant : Store.Invariant node store

/-- The regime that allows every tree and every error. -/
def Regime.any : Regime where
  node _ := True
  raises _ := True
  arises _ := trivial
  wellFormed := .inr fun _ _ => trivial
  store footing store := store.Known (fun _ => True) footing
  invariant := Store.Known.invariant _

/-- A relation between computations that is closed under what evaluation is made of.
`relates footing post` is for machines whose store holds on `footing`, and `post` is what
the two results have in common. -/
structure Discipline extends Regime where
  relates : ∀ {α : Type}, Footing → (Footing → α → Prop) → Eval α → Eval α → Prop
  bind : ∀ {α β : Type} {footing : Footing} {mid : Footing → α → Prop}
    {post : Footing → β → Prop} {x y : Eval α} {f g : α → Eval β},
    relates footing mid x y →
    (∀ after value, footing ≤ after → mid after value → relates after post (f value) (g value)) →
    relates footing post (x >>= f) (y >>= g)
  attempts : ∀ {α : Type} {footing : Footing} {post : Footing → α → Prop}
    {change : Store → Except Error (α × Store)},
    (∀ before, store footing before →
      Answers (fun (value, changed) =>
        ∃ after, footing ≤ after ∧ store after changed ∧ post after value) raises (change before)) →
    relates footing post (attempting change) (attempting change)

namespace Discipline

variable {rules : Discipline} {footing : Footing} {α : Type}

/-- A computation that is related to itself. -/
abbrev Keeps (rules : Discipline) (footing : Footing) (post : Footing → α → Prop) (x : Eval α) :
    Prop :=
  rules.relates footing post x x

/-! ## Reading and changing -/

theorem keeps_reading {post : Footing → α → Prop} {read : Store → Except Error α}
    (answers : ∀ store, store.Known rules.node footing →
      Answers (post footing) Error.Arises (read store)) :
    rules.Keeps footing post (reading read) := by
  have eq : reading read = attempting fun store => (read store).map (·, store) := by
    funext machine
    unfold reading attempting
    dsimp only
    cases read machine.store <;> rfl
  unfold Keeps
  rw [eq]
  apply rules.attempts
  intro before holds
  have answer := answers before (rules.invariant.known holds)
  dsimp only
  cases result : read before with
  | ok value =>
    rw [result] at answer
    exact ⟨footing, le_rfl, holds, answer⟩
  | error error =>
    rw [result] at answer
    exact rules.arises answer

theorem keeps_changing {post : Footing → α → Prop} {change : Store → α × Store}
    (changes : ∀ store, rules.store footing store →
      ∃ after, footing ≤ after ∧ rules.store after (change store).2 ∧ post after (change store).1) :
    rules.Keeps footing post (changing change) := by
  show rules.Keeps footing post (attempting fun store => .ok (change store))
  exact rules.attempts fun before holds => changes before holds

theorem keeps_pure {post : Footing → α → Prop} {value : α} (holds : post footing value) :
    rules.Keeps footing post (pure value) := by
  show rules.Keeps footing post (attempting fun store => .ok (value, store))
  exact rules.attempts fun _ before => ⟨footing, le_rfl, before, holds⟩

theorem keeps_throw {post : Footing → α → Prop} {error : Error} (raises : rules.raises error) :
    rules.Keeps footing post (throw error) := by
  show rules.Keeps footing post (attempting fun _ => .error error)
  exact rules.attempts fun _ _ => raises

theorem keeps_ofExcept {post : Footing → α → Prop} {result : Except Error α}
    (answers : Answers (post footing) Error.Arises result) :
    rules.Keeps footing post (Eval.ofExcept result) := by
  cases result with
  | ok value => exact keeps_pure answers
  | error error => exact keeps_throw (rules.arises answers)

/-- A result that the next computation does not look at. -/
theorem andThen {β : Type} {mid : Footing → α → Prop} {post : Footing → β → Prop}
    {x y : Eval α} {f g : α → Eval β} (first : rules.relates footing mid x y)
    (next : ∀ after value, footing ≤ after → rules.relates after post (f value) (g value)) :
    rules.relates footing post (x >>= f) (y >>= g) :=
  rules.bind first fun after value grows _ => next after value grows

/-! ## The operations of evaluation -/

/-- Whether all values of a list are known. -/
def ValuesKnown (rules : Discipline) (footing : Footing) (values : List Value) : Prop :=
  ∀ value ∈ values, value.Known rules.node footing

theorem ValuesKnown.grow {after : Footing} {values : List Value} (grows : footing ≤ after)
    (known : rules.ValuesKnown footing values) : rules.ValuesKnown after values :=
  fun value is => (known value is).grow grows

/-- Whether all items of an array literal are known. -/
def ItemsKnown (rules : Discipline) (footing : Footing) (items : List (Option Value)) : Prop :=
  ∀ item ∈ items, ∀ value ∈ item, value.Known rules.node footing

/-- Whether an object can be stored. -/
structure ObjectReady (rules : Discipline) (footing : Footing) (object : Object) : Prop where
  known : object.Known rules.node footing
  canonical : object.Canonical

namespace ObjectReady

variable {object : Object}

theorem empty : rules.ObjectReady footing .empty := ⟨.empty, .empty⟩

theorem grow {after : Footing} (grows : footing ≤ after) (ready : rules.ObjectReady footing object) :
    rules.ObjectReady after object :=
  ⟨ready.known.grow grows, ready.canonical⟩

theorem set (ready : rules.ObjectReady footing object) (key : String) {value : Value}
    (new : value.Known rules.node footing) : rules.ObjectReady footing (object.set key value) :=
  ⟨ready.known.set key new, ready.canonical.set key value⟩

theorem merge (ready : rules.ObjectReady footing object) {source : Object}
    (given : source.Known rules.node footing) : rules.ObjectReady footing (object.merge source) :=
  ⟨ready.known.merge given, ready.canonical.merge source⟩

end ObjectReady

/-- Whether a callee and its receiver are known. -/
structure CalleeKnown (rules : Discipline) (footing : Footing) (callee : Callee) : Prop where
  value : callee.value.Known rules.node footing
  receiver : ∀ value ∈ callee.receiver, value.Known rules.node footing

theorem keeps_lookup {scope : FrameId} (place : footing.frame scope) (name : String) :
    rules.Keeps footing (Value.Known rules.node) (lookup scope name) :=
  keeps_reading fun _ known => known.lookup place name

theorem keeps_binds (scope : FrameId) (name : String) :
    rules.Keeps footing (fun _ _ => True) (binds scope name) :=
  keeps_reading fun _ _ => trivial

theorem keeps_bindsLocally (scope : FrameId) (name : String) :
    rules.Keeps footing (fun _ _ => True) (bindsLocally scope name) :=
  keeps_reading fun _ _ => trivial

theorem keeps_define {scope : FrameId} (place : footing.frame scope) (name : String)
    {value : Value} (known : value.Known rules.node footing) :
    rules.Keeps footing (fun _ _ => True) (define scope name value) :=
  keeps_changing fun _ holds =>
    ⟨footing, le_rfl, rules.invariant.define holds place known name, trivial⟩

theorem keeps_newScope {parent : FrameId} (place : footing.frame parent) :
    rules.Keeps footing Footing.frame (newScope parent) :=
  keeps_changing fun store holds =>
    ⟨footing.withFrame store.nextFrame, footing.le_withFrame _,
      rules.invariant.addFrame holds place, .inr rfl⟩

theorem keeps_newObject {object : Object} (ready : rules.ObjectReady footing object) :
    rules.Keeps footing (Value.Known rules.node) (newObject object) :=
  keeps_changing fun store holds =>
    ⟨footing.withObject store.nextObject, footing.le_withObject _,
      rules.invariant.addObject holds ready.known ready.canonical, .inr rfl⟩

theorem keeps_newArray {items : List (Option Value)} (known : rules.ItemsKnown footing items) :
    rules.Keeps footing (Value.Known rules.node) (newArray items) := by
  rw [newArray_eq]
  split
  · next few =>
    exact keeps_changing fun store holds =>
      ⟨footing.withArray store.nextObject, footing.le_withArray _,
        rules.invariant.addArray holds (.ofElements known) (.ofElements few), .inr rfl⟩
  · exact keeps_throw (rules.arises ⟨rfl, rfl⟩)

theorem keeps_newFunction {function : Function} (known : function.Known rules.node footing) :
    rules.Keeps footing (Value.Known rules.node) (newFunction function) :=
  keeps_changing fun _ holds => ⟨footing, le_rfl, rules.invariant.addFunction holds, known⟩

theorem keeps_getProperty {value : Value} (known : value.Known rules.node footing)
    (key : String) : rules.Keeps footing (Value.Known rules.node) (getProperty value key) :=
  keeps_reading fun _ store => store.getProperty known key

theorem keeps_properties {value : Value} (known : value.Known rules.node footing) :
    rules.Keeps footing (Object.Known rules.node) (properties value) :=
  keeps_reading fun _ store => store.properties known

theorem keeps_spread {value : Value} (known : value.Known rules.node footing) :
    rules.Keeps footing rules.ValuesKnown (spread value) :=
  keeps_reading fun _ store => store.spread known

theorem keeps_getReference {reference : Reference} (known : reference.Known rules.node footing) :
    rules.Keeps footing (Value.Known rules.node) (getReference reference) :=
  keeps_reading fun _ store => store.getReference known

theorem keeps_display (value : Value) :
    rules.Keeps footing (fun _ _ => True) (Eval.display value) :=
  keeps_reading fun _ _ => trivial

theorem keeps_binary (op : BinaryOp) {left right : Value}
    (first : left.Known rules.node footing) (second : right.Known rules.node footing) :
    rules.Keeps footing (Value.Known rules.node) (Eval.binary op left right) :=
  keeps_reading fun store _ => store.binary_answers op first second

theorem keeps_unary (op : UnaryOp) (operand : Value) :
    rules.Keeps footing (Value.Known rules.node) (Eval.unary op operand) :=
  keeps_ofExcept (operand.unary_answers op)

theorem keeps_toNumber (value : Value) :
    rules.Keeps footing (fun _ _ => True) (Eval.toNumber value) :=
  keeps_ofExcept value.toNumber_answers

theorem keeps_setReference {reference : Reference} (known : reference.Known rules.node footing)
    {value : Value} (new : value.Known rules.node footing) :
    rules.Keeps footing (fun _ _ => True) (setReference reference value) := by
  apply rules.attempts
  intro before holds
  cases reference with
  | variable_ scope name =>
    have owner := (rules.invariant.known holds).owner known name
    exact ⟨footing, le_rfl, rules.invariant.define holds owner new name, trivial⟩
  | property object key =>
    show Answers _ _ ((before.setProperty object key value).map ((), ·))
    unfold Store.setProperty
    cases object with
    | object id =>
      exact ⟨footing, le_rfl, rules.invariant.setProperty holds (.inl known) new key, trivial⟩
    | array id =>
      exact ⟨footing, le_rfl, rules.invariant.setProperty holds (.inr known) new key, trivial⟩
    | _ => exact rules.arises ⟨rfl, rfl⟩

theorem keeps_deleteReference {reference : Reference}
    (known : reference.Known rules.node footing) :
    rules.Keeps footing (fun _ _ => True) (deleteReference reference) := by
  apply rules.attempts
  intro before holds
  cases reference with
  | variable_ scope name => exact ⟨footing, le_rfl, holds, trivial⟩
  | property object key =>
    show Answers _ _ ((before.deleteProperty object key).map fun deleted => (true, deleted.2))
    unfold Store.deleteProperty
    cases object with
    | object id =>
      exact ⟨footing, le_rfl, rules.invariant.removeProperty holds (.inl known) key, trivial⟩
    | array id =>
      exact ⟨footing, le_rfl, rules.invariant.removeProperty holds (.inr known) key, trivial⟩
    | _ => exact rules.arises ⟨rfl, rfl⟩

/-! ## Functions of the host -/

theorem relates_forM {write write' : String → Eval Unit}
    (writes : ∀ footing line,
      rules.relates footing (fun _ _ => True) (write line) (write' line))
    (lines : List String) :
    rules.relates footing (fun _ _ => True) (lines.forM write) (lines.forM write') := by
  induction lines generalizing footing with
  | nil => exact keeps_pure trivial
  | cons line rest ih => exact andThen (writes footing line) fun _ _ _ => ih

/-- A function of the host gives what is known, and fails as evaluation may fail. Only its lines
are left to what writes them. -/
theorem relates_callNativeBy {write write' : String → Eval Unit}
    (writes : ∀ footing line,
      rules.relates footing (fun _ _ => True) (write line) (write' line))
    (behaviour : Callback) {arguments : List Value} (given : rules.ValuesKnown footing arguments) :
    rules.relates footing (Value.Known rules.node) (callNativeBy write behaviour arguments)
      (callNativeBy write' behaviour arguments) := by
  have looks : rules.Keeps footing (fun _ _ => True)
      (reading fun store => .ok (behaviour (arguments.map store.look))) :=
    keeps_reading fun _ _ => trivial
  refine andThen looks fun _ deed grows => andThen (relates_forM writes deed.lines)
    fun after _ grows' => keeps_ofExcept ?_
  have given := given.grow (grows.trans grows')
  cases answered : deed.answer with
  | ok answer => exact answer.value_known given
  | error error => exact deed.arises error answered

theorem keeps_callNative
    (writes : ∀ footing line, rules.Keeps footing (fun _ _ => True) (writeLine line))
    (behaviour : Callback) {arguments : List Value} (given : rules.ValuesKnown footing arguments) :
    rules.Keeps footing (Value.Known rules.node) (callNative behaviour arguments) :=
  relates_callNativeBy writes behaviour given

end Discipline
end Scriptlet
