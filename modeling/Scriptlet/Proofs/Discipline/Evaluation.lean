import Scriptlet.Proofs.Discipline

/-!
# Evaluation under a discipline

A discipline that relates two ways of calling functions relates the evaluation of every
expression and statement under the one to that under the other. The proof follows the
recursion of the evaluator.
-/

namespace Scriptlet
namespace Eval

/-- Calls a function, where what functions of the host do is up to `native`. -/
def hostedStep (native : Callback → List Value → Eval Value) (limit : Nat) (call : Call) : Call
  | .native _ behaviour, _, arguments => native behaviour arguments
  | .script definition scope, receiver, arguments =>
    callStep limit call (.script definition scope) receiver arguments

theorem hostedStep_callNative (limit : Nat) (call : Call) :
    hostedStep callNative limit call = callStep limit call := by
  funext function receiver arguments
  cases function <;> rfl

end Eval

namespace Discipline

open Eval

variable {rules : Discipline} {footing : Footing} {scope : FrameId}

/-- Two ways of calling functions that are related for known functions and arguments. -/
def Calls (rules : Discipline) (call call' : Call) : Prop :=
  ∀ ⦃footing : Footing⦄ ⦃function : Function⦄ ⦃receiver : Option Value⦄ ⦃arguments : List Value⦄,
    function.Known rules.node footing → (∀ value ∈ receiver, value.Known rules.node footing) →
    rules.ValuesKnown footing arguments →
    rules.relates footing (Value.Known rules.node) (call function receiver arguments)
      (call' function receiver arguments)

/-! ## Parts that do not recur -/

theorem keeps_closure (place : footing.frame scope) {definition : FunctionDefinition}
    (every : definition.Every rules.node) :
    rules.Keeps footing (Value.Known rules.node) (closure scope definition) := by
  unfold Eval.closure
  split
  · exact keeps_newFunction ⟨every, place⟩
  · next name _ =>
    refine rules.bind (keeps_newScope place) fun inner own _ isOwn => ?_
    refine rules.bind (keeps_newFunction ⟨every, isOwn⟩) fun outer function grows known => ?_
    refine andThen (keeps_define (grows.1 own isOwn) name known) fun _ _ grows => ?_
    exact keeps_pure (known.grow grows)

theorem keeps_thisValue (place : footing.frame scope) :
    rules.Keeps footing (Value.Known rules.node) (thisValue scope) := by
  unfold thisValue
  refine andThen (keeps_binds scope "this") fun after bound grows => ?_
  split
  · exact keeps_lookup (grows.1 scope place) "this"
  · refine rules.bind (keeps_newObject .empty) fun inner object grew known => ?_
    refine andThen (keeps_define (grew.1 scope (grows.1 scope place)) "this" known)
      fun _ _ grows => ?_
    exact keeps_pure (known.grow grows)

theorem keeps_asFunction (name : String) {value : Value} (known : value.Known rules.node footing) :
    rules.Keeps footing (Function.Known rules.node) (asFunction name value) := by
  cases value with
  | function _ target => exact keeps_pure known
  | _ => exact keeps_throw (rules.arises ⟨rfl, rfl⟩)

theorem keeps_isUnbound (expr : Expr) :
    rules.Keeps footing (fun _ _ => True) (isUnbound scope expr) := by
  unfold isUnbound
  split
  · exact andThen (keeps_binds scope _) fun _ _ _ => keeps_pure trivial
  · exact keeps_pure trivial

theorem keeps_memberCallee {object : Value} (known : object.Known rules.node footing)
    (key : String) : rules.Keeps footing rules.CalleeKnown (memberCallee object key) := by
  refine rules.bind (keeps_getProperty known key) fun after value grows found => ?_
  refine keeps_pure ⟨found, fun receiver is => ?_⟩
  cases is
  exact known.grow grows

/-- Whether errors about malformed trees are allowed. -/
def Lenient (rules : Discipline) : Prop :=
  ∀ error : Error, error.isInternal = true → rules.raises error

/-- Only targets are resolved, unless the discipline is lenient. -/
theorem keeps_invalidTarget {post : Footing → Reference → Prop} {expr : Expr}
    (target : expr.isTarget = true ∨ rules.Lenient)
    (isNot : expr.isTarget = false) (text : String) :
    rules.Keeps footing post (throw (.type (.invalidTarget text))) := by
  rcases target with target | raises
  · rw [isNot] at target
    cases target
  · exact keeps_throw (raises _ rfl)

/-! ## Expressions -/

section

variable {call call' : Call}

/-- Whether what a call goes to is known, if it goes to anything. -/
def ResolvedKnown (rules : Discipline) (footing : Footing) (callee? : Option Callee) : Prop :=
  ∀ callee ∈ callee?, rules.CalleeKnown footing callee

theorem ResolvedKnown.none : rules.ResolvedKnown footing none := nofun

theorem ResolvedKnown.some {callee : Callee} (known : rules.CalleeKnown footing callee) :
    rules.ResolvedKnown footing (some callee) := by
  intro other is
  cases is
  exact known

theorem relates_resolve {accessed accessed' : Option (Eval (Option Callee))}
    {plain plain' : Eval Value}
    (access : Option.Rel (rules.relates footing rules.ResolvedKnown) accessed accessed')
    (value : rules.relates footing (Value.Known rules.node) plain plain') :
    rules.relates footing rules.ResolvedKnown (resolve accessed plain)
      (resolve accessed' plain') := by
  cases access with
  | some access => exact access
  | none =>
    show rules.relates footing _ (_ <$> plain) (_ <$> plain')
    rw [map_eq_pure_bind, map_eq_pure_bind]
    exact rules.bind value fun _ _ _ known => keeps_pure (.some ⟨known, nofun⟩)

mutual

theorem relates_evalExpr (calls : rules.Calls call call') (expr : Expr) {footing : Footing}
    {scope : FrameId} (place : footing.frame scope) (every : expr.Every rules.node) :
    rules.relates footing (Value.Known rules.node) (evalExpr call scope expr)
      (evalExpr call' scope expr) := by
  cases expr with
  | number _ | string _ | boolean _ | null => exact keeps_pure trivial
  | template head spans =>
    simp only [evalExpr]
    exact andThen (relates_evalSpans calls spans place every.2) fun _ _ _ => keeps_pure trivial
  | identifier name => exact keeps_lookup place name
  | this => exact keeps_thisValue place
  | array elements =>
    simp only [evalExpr]
    refine rules.bind (relates_evalElements calls elements place every.2) fun _ items _ known => ?_
    exact keeps_newArray known
  | object properties =>
    simp only [evalExpr]
    refine rules.bind (relates_evalProperties calls properties place .empty every.2)
      fun _ object _ ready => ?_
    exact keeps_newObject ready
  | function definition => exact keeps_closure place every.2
  | parenthesized inner => exact relates_evalExpr calls inner place every.2
  | sequence members => exact relates_evalSequence calls members place trivial every.2
  | new callee arguments => exact keeps_throw (rules.arises ⟨rfl, rfl⟩)
  | unary op operand =>
    have plain : rules.relates footing (Value.Known rules.node)
        (do unary op (← evalExpr call scope operand))
        (do unary op (← evalExpr call' scope operand)) :=
      andThen (relates_evalExpr calls operand place every.2) fun _ value _ => keeps_unary op value
    cases op with
    | typeof =>
      simp only [evalExpr]
      -- A name without a variable has a type before its value is asked for.
      refine andThen (keeps_isUnbound operand) fun _ unbound grows => ?_
      split
      · exact keeps_pure trivial
      · exact andThen (relates_evalExpr calls operand (grows.1 scope place) every.2)
          fun _ value _ => keeps_unary _ value
    | delete =>
      simp only [evalExpr]
      split
      · next isProperty =>
        -- A property is a target, whatever the regime says of the tree.
        have target : operand.isTarget = true := by
          cases operand <;> first | rfl | cases isProperty
        refine rules.bind (relates_evalReference calls operand place (.inl target) every.2)
          fun _ reference _ known => ?_
        exact andThen (keeps_deleteReference known) fun _ _ _ => keeps_pure trivial
      · exact plain
    | _ => exact plain
  | update op side target =>
    have isTarget := rules.wellFormed.imp_left fun executable => executable _ every.1
    simp only [evalExpr]
    refine rules.bind (relates_evalReference calls target place isTarget every.2)
      fun _ reference _ known => ?_
    refine andThen (keeps_getReference known) fun _ old grew => ?_
    refine andThen (keeps_toNumber old) fun _ number grown => ?_
    refine andThen (keeps_setReference (known.grow (grew.trans grown)) trivial) fun _ _ _ => ?_
    cases side <;> exact keeps_pure trivial
  | binary op left right =>
    simp only [evalExpr]
    refine rules.bind (relates_evalExpr calls left place every.2.1) fun _ first grows known => ?_
    split
    · exact keeps_pure known
    · refine rules.bind (relates_evalExpr calls right (grows.1 scope place) every.2.2)
        fun _ second grown found => ?_
      exact keeps_binary op (known.grow grown) found
  | conditional test consequent alternate =>
    simp only [evalExpr]
    refine andThen (relates_evalExpr calls test place every.2.1) fun _ decision grows => ?_
    split
    · exact relates_evalExpr calls consequent (grows.1 scope place) every.2.2.1
    · exact relates_evalExpr calls alternate (grows.1 scope place) every.2.2.2
  | assign target value =>
    have isTarget := rules.wellFormed.imp_left fun executable => executable _ every.1
    simp only [evalExpr]
    refine rules.bind (relates_evalReference calls target place isTarget every.2.1)
      fun _ reference grows known => ?_
    refine rules.bind (relates_evalExpr calls value (grows.1 scope place) every.2.2)
      fun _ result grown found => ?_
    refine andThen (keeps_setReference (known.grow grown) found) fun _ _ last => ?_
    exact keeps_pure (found.grow last)
  | assignWith op target value =>
    have isTarget := rules.wellFormed.imp_left fun executable => executable _ every.1
    simp only [evalExpr]
    refine rules.bind (relates_evalReference calls target place isTarget every.2.1)
      fun _ reference grows known => ?_
    refine rules.bind (keeps_getReference known) fun _ current grew old => ?_
    split
    · exact keeps_pure old
    · have here := grew.1 scope (grows.1 scope place)
      refine rules.bind (relates_evalExpr calls value here every.2.2)
        fun _ operand grown found => ?_
      refine rules.bind (keeps_binary op (old.grow grown) found) fun _ result more made => ?_
      refine andThen (keeps_setReference (known.grow ((grew.trans grown).trans more)) made)
        fun _ _ last => ?_
      exact keeps_pure (made.grow last)
  | call callee arguments =>
    simp only [evalExpr]
    refine rules.bind (relates_resolve (relates_evalAccessed calls callee place every.2.1)
      (relates_evalExpr calls callee place every.2.1)) fun _ resolved grows known => ?_
    cases resolved with
    | none => exact keeps_pure trivial
    | some target =>
      -- The arguments are evaluated after the callee, so what is known of it grows with them.
      have found := known target rfl
      refine rules.bind (keeps_asFunction (calleeName callee) found.value)
        fun _ function grown made => ?_
      refine rules.bind (relates_evalArguments calls arguments (grown.1 scope (grows.1 scope place))
        every.2.2) fun _ values more given => ?_
      exact calls (made.grow more)
        (fun value is => (found.receiver value is).grow (grown.trans more)) given
  | member object property =>
    simp only [evalExpr]
    refine rules.bind (relates_evalExpr calls object place every.2) fun _ value _ known => ?_
    exact keeps_getProperty known property
  | index object key =>
    simp only [evalExpr]
    refine rules.bind (relates_evalExpr calls object place every.2.1) fun _ target grows known => ?_
    refine andThen (relates_evalExpr calls key (grows.1 scope place) every.2.2)
      fun _ name grew => ?_
    refine andThen (keeps_display name) fun _ text grown => ?_
    exact keeps_getProperty (known.grow (grew.trans grown)) text
  | optional object access =>
    simp only [evalExpr]
    refine rules.bind (relates_evalExpr calls object place every.2.1) fun _ target grows known => ?_
    split
    · exact keeps_pure trivial
    · refine rules.bind (relates_evalAccess calls access (grows.1 scope place) known every.2.2)
        fun _ callee _ found => ?_
      exact keeps_pure found.value

theorem relates_evalAccessed (calls : rules.Calls call call') (expr : Expr) {footing : Footing}
    {scope : FrameId} (place : footing.frame scope) (every : expr.Every rules.node) :
    Option.Rel (rules.relates footing rules.ResolvedKnown)
      (evalAccessed call scope expr) (evalAccessed call' scope expr) := by
  cases expr with
  | member object property =>
    refine .some (rules.bind (relates_evalExpr calls object place every.2)
      fun _ value _ known => ?_)
    refine rules.bind (keeps_memberCallee known property) fun _ callee _ found => ?_
    exact keeps_pure (.some found)
  | index object key =>
    refine .some (rules.bind (relates_evalExpr calls object place every.2.1)
      fun _ target grows known => ?_)
    refine andThen (relates_evalExpr calls key (grows.1 scope place) every.2.2)
      fun _ name grew => ?_
    refine andThen (keeps_display name) fun _ text grown => ?_
    refine rules.bind (keeps_memberCallee (known.grow (grew.trans grown)) text)
      fun _ callee _ found => ?_
    exact keeps_pure (.some found)
  | optional object access =>
    refine .some (rules.bind (relates_evalExpr calls object place every.2.1)
      fun _ target grows known => ?_)
    split
    · exact keeps_pure .none
    · refine rules.bind (relates_evalAccess calls access (grows.1 scope place) known every.2.2)
        fun _ callee _ found => ?_
      exact keeps_pure (.some found)
  | _ => exact .none

theorem relates_evalAccess (calls : rules.Calls call call') (access : Access) {footing : Footing}
    {scope : FrameId} (place : footing.frame scope) {target : Value}
    (known : target.Known rules.node footing) (every : access.Every rules.node) :
    rules.relates footing rules.CalleeKnown (evalAccess call scope target access)
      (evalAccess call' scope target access) := by
  cases access with
  | member property => exact keeps_memberCallee known property
  | index key =>
    simp only [evalAccess]
    refine andThen (relates_evalExpr calls key place every) fun _ name grew => ?_
    refine andThen (keeps_display name) fun _ text grown => ?_
    exact keeps_memberCallee (known.grow (grew.trans grown)) text
  | call arguments =>
    simp only [evalAccess]
    refine rules.bind (relates_evalArguments calls arguments place every)
      fun _ values grows given => ?_
    refine rules.bind (keeps_asFunction "expression" (known.grow grows))
      fun _ function more made => ?_
    refine rules.bind (calls made (by simp) fun value is => (given value is).grow more)
      fun _ result _ found => ?_
    exact keeps_pure ⟨found, by simp⟩

theorem relates_evalReference (calls : rules.Calls call call') (expr : Expr) {footing : Footing}
    {scope : FrameId} (place : footing.frame scope)
    (target : expr.isTarget = true ∨ rules.Lenient)
    (every : expr.Every rules.node) :
    rules.relates footing (Reference.Known rules.node) (evalReference call scope expr)
      (evalReference call' scope expr) := by
  cases expr with
  | identifier name => exact keeps_pure place
  | parenthesized inner => exact relates_evalReference calls inner place target every.2
  | member object property =>
    simp only [evalReference]
    exact rules.bind (relates_evalExpr calls object place every.2)
      fun _ _ _ known => keeps_pure known
  | index object key =>
    simp only [evalReference]
    refine rules.bind (relates_evalExpr calls object place every.2.1) fun _ value grows known => ?_
    refine andThen (relates_evalExpr calls key (grows.1 scope place) every.2.2)
      fun _ name grew => ?_
    refine andThen (keeps_display name) fun _ text grown => ?_
    exact keeps_pure (known.grow (grew.trans grown))
  | _ => exact keeps_invalidTarget target rfl _

theorem relates_evalSequence (calls : rules.Calls call call') (exprs : List Expr)
    {footing : Footing} {scope : FrameId} (place : footing.frame scope) {last : Value}
    (known : last.Known rules.node footing) (every : everyExpr rules.node exprs) :
    rules.relates footing (Value.Known rules.node) (evalSequence call scope last exprs)
      (evalSequence call' scope last exprs) := by
  cases exprs with
  | nil => exact keeps_pure known
  | cons first rest =>
    refine rules.bind (relates_evalExpr calls first place every.1) fun _ value grows found => ?_
    exact relates_evalSequence calls rest (grows.1 scope place) found every.2

theorem relates_evalArguments (calls : rules.Calls call call') (arguments : List Argument)
    {footing : Footing} {scope : FrameId} (place : footing.frame scope)
    (every : everyArgument rules.node arguments) :
    rules.relates footing rules.ValuesKnown (evalArguments call scope arguments)
      (evalArguments call' scope arguments) := by
  match arguments with
  | [] => exact keeps_pure (List.forall_mem_nil _)
  | ⟨true, expr⟩ :: rest =>
    simp only [evalArguments]
    refine rules.bind (relates_evalExpr calls expr place every.1) fun _ value grew known => ?_
    refine rules.bind (keeps_spread known) fun _ values grown found => ?_
    have here := grown.1 scope (grew.1 scope place)
    refine rules.bind (relates_evalArguments calls rest here every.2)
      fun _ others grows given => ?_
    exact keeps_pure (List.forall_mem_append.mpr ⟨found.grow grows, given⟩)
  | ⟨false, expr⟩ :: rest =>
    simp only [evalArguments]
    refine rules.bind (relates_evalExpr calls expr place every.1) fun _ value grew known => ?_
    refine rules.bind (relates_evalArguments calls rest (grew.1 scope place) every.2)
      fun _ others grows given => ?_
    exact keeps_pure (List.forall_mem_cons.mpr ⟨known.grow grows, given⟩)

theorem relates_evalElements (calls : rules.Calls call call') (elements : List Element)
    {footing : Footing} {scope : FrameId} (place : footing.frame scope)
    (every : everyElement rules.node elements) :
    rules.relates footing rules.ItemsKnown (evalElements call scope elements)
      (evalElements call' scope elements) := by
  match elements with
  | [] => exact keeps_pure (List.forall_mem_nil _)
  | .hole :: rest =>
    simp only [evalElements]
    refine rules.bind (relates_evalElements calls rest place every.2) fun _ items _ known => ?_
    exact keeps_pure (List.forall_mem_cons.mpr ⟨by simp, known⟩)
  | .item expr :: rest =>
    simp only [evalElements]
    refine rules.bind (relates_evalExpr calls expr place every.1) fun _ value grew known => ?_
    refine rules.bind (relates_evalElements calls rest (grew.1 scope place) every.2)
      fun _ items grows given => ?_
    exact keeps_pure (List.forall_mem_cons.mpr ⟨by simpa using known.grow grows, given⟩)
  | .spread expr :: rest =>
    simp only [evalElements]
    refine rules.bind (relates_evalExpr calls expr place every.1) fun _ value grew known => ?_
    refine rules.bind (keeps_spread known) fun _ values grown found => ?_
    refine rules.bind (relates_evalElements calls rest (grown.1 scope (grew.1 scope place)) every.2)
      fun _ items grows given => ?_
    exact keeps_pure
      (List.forall_mem_append.mpr ⟨by simpa [ValuesKnown] using found.grow grows, given⟩)

theorem relates_evalName (calls : rules.Calls call call') (name : PropertyName)
    {footing : Footing} {scope : FrameId} (place : footing.frame scope)
    (every : name.Every rules.node) :
    rules.relates footing (fun _ _ => True) (evalName call scope name)
      (evalName call' scope name) := by
  cases name with
  | identifier _ | string _ | number _ => exact keeps_pure trivial
  | computed expr =>
    simp only [evalName]
    exact andThen (relates_evalExpr calls expr place every) fun _ value _ => keeps_display value

theorem relates_evalProperties (calls : rules.Calls call call') (properties : List Property)
    {footing : Footing} {scope : FrameId} (place : footing.frame scope) {object : Object}
    (ready : rules.ObjectReady footing object) (every : everyProperty rules.node properties) :
    rules.relates footing rules.ObjectReady (evalProperties call scope object properties)
      (evalProperties call' scope object properties) := by
  match properties with
  | [] => exact keeps_pure ready
  | .value name expr :: rest =>
    simp only [evalProperties]
    refine andThen (relates_evalName calls name place every.1.1) fun _ key grew => ?_
    refine rules.bind (relates_evalExpr calls expr (grew.1 scope place) every.1.2)
      fun _ value grown found => ?_
    have grows := grew.trans grown
    exact relates_evalProperties calls rest (grows.1 scope place) ((ready.grow grows).set key found)
      every.2
  | .shorthand name :: rest =>
    simp only [evalProperties]
    refine rules.bind (keeps_lookup place name) fun _ value grows found => ?_
    exact relates_evalProperties calls rest (grows.1 scope place)
      ((ready.grow grows).set name found) every.2
  | .spread expr :: rest =>
    simp only [evalProperties]
    refine rules.bind (relates_evalExpr calls expr place every.1) fun _ value grew found => ?_
    refine rules.bind (keeps_properties found) fun _ source grown given => ?_
    have grows := grew.trans grown
    exact relates_evalProperties calls rest (grows.1 scope place) ((ready.grow grows).merge given)
      every.2
  | .method name definition :: rest =>
    simp only [evalProperties]
    refine andThen (relates_evalName calls name place every.1.1) fun _ key grew => ?_
    refine rules.bind (keeps_closure (grew.1 scope place) every.1.2)
      fun _ function grown found => ?_
    have grows := grew.trans grown
    exact relates_evalProperties calls rest (grows.1 scope place) ((ready.grow grows).set key found)
      every.2

theorem relates_evalSpans (calls : rules.Calls call call') (spans : List Span)
    {footing : Footing} {scope : FrameId} (place : footing.frame scope)
    (every : everySpan rules.node spans) :
    rules.relates footing (fun _ _ => True) (evalSpans call scope spans)
      (evalSpans call' scope spans) := by
  match spans with
  | [] => exact keeps_pure trivial
  | ⟨_, expr, after⟩ :: rest =>
    simp only [evalSpans]
    refine andThen (relates_evalExpr calls expr place every.1) fun _ value grew => ?_
    refine andThen (keeps_display value) fun _ text grown => ?_
    refine andThen (relates_evalSpans calls rest ((grew.trans grown).1 scope place) every.2)
      fun _ _ _ => ?_
    exact keeps_pure trivial

end

/-! ## Statements -/

/-- Whether the value of a completion is known. -/
def CompletionKnown (rules : Discipline) (footing : Footing) (completion : Completion) : Prop :=
  completion.value.Known rules.node footing

theorem keeps_declare (place : footing.frame scope) {definition : FunctionDefinition}
    (every : (Stmt.function definition).Every rules.node) :
    rules.Keeps footing (fun _ _ => True) (declare scope definition) := by
  unfold declare
  split
  · next unnamed =>
    -- a declaration without name is malformed
    rcases rules.wellFormed with executable | lenient
    · have named : definition.name.isSome = true := executable _ every.1
      rw [unnamed] at named
      cases named
    · exact keeps_throw (lenient _ rfl)
  · next name _ =>
    refine rules.bind (keeps_newFunction ⟨every.2, place⟩) fun _ function grows known => ?_
    exact keeps_define (grows.1 scope place) name known

theorem keeps_hoist (place : footing.frame scope) {body : List Stmt}
    (every : everyStmt rules.node body) :
    rules.Keeps footing (fun _ _ => True) (hoist scope body) := by
  induction body generalizing footing with
  | nil => exact keeps_pure trivial
  | cons first rest ih =>
    cases first with
    | function definition =>
      exact andThen (keeps_declare place every.1) fun _ _ grows => ih (grows.1 scope place) every.2
    | _ => exact ih place every.2

theorem relates_declareVariable (calls : rules.Calls call call') (place : footing.frame scope)
    {declaration : Declaration} (every : declaration.Every rules.node) :
    rules.relates footing (fun _ _ => True) (declareVariable call scope declaration)
      (declareVariable call' scope declaration) := by
  obtain ⟨name, init⟩ := declaration
  cases init with
  | some init =>
    refine rules.bind (relates_evalExpr calls init place every) fun _ value grows known => ?_
    exact keeps_define (grows.1 scope place) name known
  | none =>
    refine andThen (keeps_bindsLocally scope name) fun _ bound grows => ?_
    split
    · exact keeps_pure trivial
    · exact keeps_define (grows.1 scope place) name trivial

theorem relates_declareVariables (calls : rules.Calls call call') (place : footing.frame scope)
    {declarations : List Declaration} (every : everyDeclaration rules.node declarations) :
    rules.relates footing (fun _ _ => True) (declareVariables call scope declarations)
      (declareVariables call' scope declarations) := by
  induction declarations generalizing footing with
  | nil => exact keeps_pure trivial
  | cons first rest ih =>
    refine andThen (relates_declareVariable calls place every.1) fun _ _ grows => ?_
    exact ih (grows.1 scope place) every.2

theorem relates_returnValue (calls : rules.Calls call call') (place : footing.frame scope)
    {value : Option Expr} (every : everyOptionalExpr rules.node value) :
    rules.relates footing (Value.Known rules.node) (returnValue call scope value)
      (returnValue call' scope value) := by
  cases value with
  | none => exact keeps_pure trivial
  | some expr => exact relates_evalExpr calls expr place every

mutual

theorem relates_runStmt (calls : rules.Calls call call') (stmt : Stmt) {footing : Footing}
    {scope : FrameId} (place : footing.frame scope) (every : stmt.Every rules.node) :
    rules.relates footing rules.CompletionKnown (runStmt call scope stmt)
      (runStmt call' scope stmt) := by
  cases stmt with
  | block body =>
    simp only [runStmt]
    refine andThen (keeps_hoist place every.2) fun _ _ grows => ?_
    exact relates_runRest calls body (grows.1 scope place) trivial every.2
  | «variables» kind declarations =>
    simp only [runStmt]
    exact andThen (relates_declareVariables calls place every.2) fun _ _ _ => keeps_pure trivial
  | empty => exact keeps_pure trivial
  | expression expr =>
    simp only [runStmt]
    exact rules.bind (relates_evalExpr calls expr place every.2) fun _ _ _ known => keeps_pure known
  | function definition =>
    simp only [runStmt]
    exact andThen (keeps_declare place every) fun _ _ _ => keeps_pure trivial
  | if_ test consequent alternate =>
    simp only [runStmt]
    refine andThen (relates_evalExpr calls test place every.2.1) fun _ decision grows => ?_
    split
    · exact relates_runStmt calls consequent (grows.1 scope place) every.2.2.1
    · exact relates_runOptional calls alternate (grows.1 scope place) every.2.2.2
  | return_ value =>
    simp only [runStmt]
    exact rules.bind (relates_returnValue calls place every.2) fun _ _ _ known => keeps_pure known
  | _ => exact keeps_throw (rules.arises ⟨rfl, rfl⟩)

theorem relates_runOptional (calls : rules.Calls call call') (stmt : Option Stmt)
    {footing : Footing} {scope : FrameId} (place : footing.frame scope)
    (every : everyOptionalStmt rules.node stmt) :
    rules.relates footing rules.CompletionKnown (runOptional call scope stmt)
      (runOptional call' scope stmt) := by
  cases stmt with
  | none => exact keeps_pure trivial
  | some stmt => exact relates_runStmt calls stmt place every

theorem relates_runRest (calls : rules.Calls call call') (body : List Stmt) {footing : Footing}
    {scope : FrameId} (place : footing.frame scope) {last : Value}
    (known : last.Known rules.node footing) (every : everyStmt rules.node body) :
    rules.relates footing rules.CompletionKnown (runRest call scope last body)
      (runRest call' scope last body) := by
  cases body with
  | nil => exact keeps_pure known
  | cons first rest =>
    have run : rules.relates footing rules.CompletionKnown
        (do match ← runStmt call scope first with
          | .normal value => runRest call scope value rest
          | .returned value => return .returned value)
        (do match ← runStmt call' scope first with
          | .normal value => runRest call' scope value rest
          | .returned value => return .returned value) := by
      refine rules.bind (relates_runStmt calls first place every.1)
        fun _ completion grows found => ?_
      cases completion with
      | normal value => exact relates_runRest calls rest (grows.1 scope place) found every.2
      | returned value => exact keeps_pure found
    cases first with
    | function definition => exact relates_runRest calls rest place known every.2
    | _ => exact run

end

theorem relates_runStmts (calls : rules.Calls call call') (place : footing.frame scope)
    {body : List Stmt} (every : everyStmt rules.node body) :
    rules.relates footing rules.CompletionKnown (runStmts call scope body)
      (runStmts call' scope body) :=
  andThen (keeps_hoist place every) fun _ _ grows =>
    relates_runRest calls body (grows.1 scope place) trivial every

/-! ## Calls -/

theorem keeps_bindParams (place : footing.frame scope) (names : List String)
    {values : List Value} (known : rules.ValuesKnown footing values) :
    rules.Keeps footing (fun _ _ => True) (bindParams scope names values) := by
  induction names generalizing footing values with
  | nil => exact keeps_pure trivial
  | cons name names ih =>
    cases values with
    | nil =>
      refine andThen (keeps_define place name trivial) fun _ _ grows => ?_
      exact ih (grows.1 scope place) (List.forall_mem_nil _)
    | cons value values =>
      obtain ⟨here, later⟩ := List.forall_mem_cons.mp known
      refine andThen (keeps_define place name here) fun _ _ grows => ?_
      exact ih (grows.1 scope place) (ValuesKnown.grow grows later)

theorem keeps_callScope (place : footing.frame scope) (params : List String)
    {receiver : Option Value} (this : ∀ value ∈ receiver, value.Known rules.node footing)
    {arguments : List Value} (known : rules.ValuesKnown footing arguments) :
    rules.Keeps footing Footing.frame (callScope scope params receiver arguments) := by
  refine rules.bind (keeps_newScope place) fun inner frame grew isFrame => ?_
  have bound : rules.Keeps inner (fun _ _ => True) (bindThis frame receiver) := by
    cases receiver with
    | none => exact keeps_pure trivial
    | some value => exact keeps_define isFrame "this" ((this value rfl).grow grew)
  refine andThen bound fun _ _ grown => ?_
  refine andThen (keeps_bindParams (grown.1 frame isFrame) params
    (known.grow (grew.trans grown))) fun _ _ grows => ?_
  exact keeps_pure (grows.1 frame (grown.1 frame isFrame))

theorem relates_callBody (calls : rules.Calls call call') {definition : FunctionDefinition}
    (known : (Function.script definition scope).Known rules.node footing)
    {receiver : Option Value} (this : ∀ value ∈ receiver, value.Known rules.node footing)
    {arguments : List Value} (given : rules.ValuesKnown footing arguments) :
    rules.relates footing (Value.Known rules.node)
      (callBody call definition scope receiver arguments)
      (callBody call' definition scope receiver arguments) := by
  obtain ⟨every, place⟩ := known
  obtain ⟨name, params, body, isGenerator⟩ := definition
  refine rules.bind (keeps_callScope place params this given) fun _ frame _ isFrame => ?_
  refine rules.bind (relates_runStmts calls isFrame every) fun _ completion _ found => ?_
  cases completion with
  | normal _ => exact keeps_pure trivial
  | returned value => exact keeps_pure found

/-- Calls from bodies that one discipline relates make calls that another one relates. The
bodies of these calls are only asked about if a call `opens` at all. -/
theorem calls_hostedStep (rules inner : Discipline) (same : inner.node = rules.node) {opens : Prop}
    {limit limit' : Nat} {native native' : Callback → List Value → Eval Value}
    (natives : ∀ footing behaviour arguments, rules.ValuesKnown footing arguments →
      rules.relates footing (Value.Known rules.node) (native behaviour arguments)
        (native' behaviour arguments))
    (enters : ∀ {footing : Footing} {post : Footing → Value → Prop} {x y : Eval Value},
      (opens → inner.relates footing post x y) →
        rules.relates footing post (withCall limit x) (withCall limit' y))
    (calls : opens → inner.Calls call call') :
    rules.Calls (hostedStep native limit call) (hostedStep native' limit' call') := by
  intro footing function receiver arguments known this given
  cases function with
  | native name behaviour => exact natives footing behaviour arguments given
  | script definition scope =>
    simp only [hostedStep, callStep]
    split
    · exact keeps_throw (rules.arises ⟨rfl, rfl⟩)
    · apply enters
      intro isOpen
      unfold ValuesKnown at given
      rw [← same] at known this given ⊢
      exact relates_callBody (calls isOpen) known this given

end

end Discipline
end Scriptlet
