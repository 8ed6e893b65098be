import Scriptlet.Proofs.Unrolling

/-!
# What ambiguous words belong to

Two words could belong to more than one construct. In the header of a loop, `in` is an operator of
the head or belongs to the loop; after nested conditions, `else` belongs to any of those that are
still without it. A tree shows what was decided. It is open for `in` where the operator stands
outside of all brackets, and open for `else` where it ends in a condition that could take one.

* `Expr.OpenIn` and `Stmt.OpenIf` are these places of a tree, `Node.HeadsClosed` and
  `Node.IfsClosed` say that no loop and no condition has decided against itself;
* `MeetsAt` follows two parses side by side, with what is known of `in` and of the token of
  lookahead where they start, and of the tree and that token where they end;
* every primitive of the grammar has its rule. What takes no part of the level further in is
  `meets_of_follows`: it leaves the setting of `in` as it is.
-/

namespace Scriptlet

/-! ## Open ends of trees -/

/-- The parts of an expression that no brackets stand around, nor the question mark and the colon
of a conditional. -/
def Expr.bareParts : Expr → List Expr
  | .sequence members => members
  | .new callee _ | .call callee _ => [callee]
  | .unary _ operand | .update _ _ operand => [operand]
  | .binary _ left right | .assign left right | .assignWith _ left right => [left, right]
  | .conditional test _ alternate => [test, alternate]
  | .member owner _ | .index owner _ | .optional owner _ => [owner]
  | _ => []

/-- Whether the operator `in` stands in an expression outside of all brackets. -/
inductive Expr.OpenIn : Expr → Prop where
  | here (left right : Expr) : OpenIn (.binary .in_ left right)
  | inside {expr part : Expr} (bare : part ∈ expr.bareParts) (opens : OpenIn part) : OpenIn expr

/-- The statement that a statement ends with. -/
def Stmt.last? : Stmt → Option Stmt
  | .if_ _ consequent none => some consequent
  | .if_ _ _ (some alternate) => some alternate
  | .while_ _ body | .for_ _ _ _ body | .forIn _ _ body | .forOf _ _ _ body | .with_ _ body
  | .labelled _ body | .export_ _ body => some body
  | _ => none

/-- Whether a statement ends in a condition that has no `else`. -/
inductive Stmt.OpenIf : Stmt → Prop where
  | here (test : Expr) (consequent : Stmt) : OpenIf (.if_ test consequent none)
  | inside {stmt last : Stmt} (ends : stmt.last? = some last) (opens : OpenIf last) : OpenIf stmt

/-- The expressions in the head of a loop, with the initial values of its variables. -/
def ForHead.exprs : ForHead → List Expr
  | .declaration _ declarations => declarations.filterMap Declaration.init
  | .expression expr => [expr]

/-- The head of a loop, if it has one. -/
def Stmt.head? : Stmt → Option ForHead
  | .for_ init _ _ _ => init
  | .forIn head _ _ | .forOf _ head _ _ => some head
  | _ => none

/-- Whether a loop has no `in` in its head that it could take for itself. -/
def Node.HeadsClosed : Node → Prop
  | .stmt root => ∀ head, root.head? = some head → ∀ expr ∈ head.exprs, ¬ expr.OpenIn
  | .expr _ => True

/-- Whether a condition with `else` has no other one before it that could take the word. -/
def Node.IfsClosed : Node → Prop
  | .stmt (.if_ _ consequent (some _)) => ¬ consequent.OpenIf
  | _ => True

theorem Expr.OpenIn.cases {expr : Expr} (opens : expr.OpenIn) :
    (∃ left right, expr = .binary .in_ left right) ∨ ∃ part ∈ expr.bareParts, part.OpenIn := by
  cases opens with
  | here left right => exact .inl ⟨left, right, rfl⟩
  | inside bare opens => exact .inr ⟨_, bare, opens⟩

/-- A statement that ends with none is no place for `else`. -/
theorem Stmt.not_openIf {stmt : Stmt} (none : stmt.last? = none) : ¬ stmt.OpenIf := by
  intro opens
  cases opens with
  | here => cases none
  | inside ends => exact nomatch none.symm.trans ends

/-- An open statement ends with an open one, unless it is a condition without `else` itself. -/
theorem Stmt.OpenIf.of_last {stmt last : Stmt} (opens : stmt.OpenIf) (ends : stmt.last? = some last)
    (other : ∀ test consequent, stmt ≠ .if_ test consequent none) : last.OpenIf := by
  cases opens with
  | here test consequent => exact (other test consequent rfl).elim
  | inside found opens => exact Option.some.inj (found.symm.trans ends) ▸ opens

namespace Grammar

variable {α β : Type}

/-! ## Two parses side by side -/

/-- How two parses end that do the same: `in` is an operator as before, and what was read is as
`good` says, with the token of lookahead behind it. -/
inductive Met (allowed : Bool) (good : α → Token → Prop) :
    EStateM.Result Error State α → EStateM.Result Error State α → Prop where
  | ok {a : α} {after : State} (holds : good a after.current) (same : after.allowIn = allowed) :
    Met allowed good (.ok a after) (.ok a after)
  | error (error : Error) (after : State) :
    Met allowed good (.error error after) (.error error after)

/-- Two parses that do the same where `in` is an operator or not, as `allowed` says, and the
current token is as `pre` says. -/
def MeetsAt (allowed : Bool) (pre : Token → Prop) (good : α → Token → Prop) (x y : Parse α) :
    Prop :=
  ∀ state, state.allowIn = allowed → pre state.current → Met allowed good (x state) (y state)

/-- Two parses that do the same before every token, and what they read. -/
abbrev Meets (allowed : Bool) (good : α → Prop) (x y : Parse α) : Prop :=
  MeetsAt allowed (fun _ => True) (fun a _ => good a) x y

theorem Met.eq {allowed : Bool} {good : α → Token → Prop}
    {left right : EStateM.Result Error State α} (met : Met allowed good left right) :
    left = right := by
  cases met with
  | ok => rfl
  | error => rfl

variable {allowed : Bool} {pre : Token → Prop} {good : α → Token → Prop} {x y : Parse α}

theorem MeetsAt.weaken {good' : α → Token → Prop} (meets : MeetsAt allowed pre good x y)
    (implies : ∀ a token, good a token → good' a token) : MeetsAt allowed pre good' x y := by
  intro state same holds
  have met := meets state same holds
  generalize x state = left, y state = right at met ⊢
  cases met with
  | ok holds same => exact .ok (implies _ _ holds) same
  | error error after => exact .error error after

/-- What starts before any token starts before a known one. -/
theorem MeetsAt.at (meets : MeetsAt allowed (fun _ => True) good x y) :
    MeetsAt allowed pre good x y :=
  fun state same _ => meets state same trivial

/-- What the current token shows of other things may be used. -/
theorem MeetsAt.assuming {fact : Prop} (shows : ∀ token, pre token → fact)
    (meets : fact → MeetsAt allowed pre good x y) : MeetsAt allowed pre good x y :=
  fun state same holds => meets (shows _ holds) state same holds

theorem meets_pure {a : α} (holds : ∀ token, pre token → good a token) :
    MeetsAt allowed pre good (pure a) (pure a) :=
  fun _ same known => .ok (holds _ known) same

/-- A value that is good before every token. -/
theorem meets_value {good : α → Prop} {a : α} (holds : good a) :
    MeetsAt allowed pre (fun a _ => good a) (pure a) (pure a) :=
  meets_pure fun _ _ => holds

theorem meets_throw {error : Error} : MeetsAt allowed pre good (throw error) (throw error) :=
  fun state _ _ => .error error state

/-- Sequencing. What the first parse leaves is what the second one starts with. -/
theorem MeetsAt.bind {mid : α → Token → Prop} {good : β → Token → Prop} {f g : α → Parse β}
    (first : MeetsAt allowed pre mid x y)
    (second : ∀ a, MeetsAt allowed (mid a) good (f a) (g a)) :
    MeetsAt allowed pre good (x >>= f) (y >>= g) := by
  intro state same holds
  have met := first state same holds
  show Met allowed good (EStateM.bind x f state) (EStateM.bind y g state)
  unfold EStateM.bind
  generalize x state = left, y state = right at met ⊢
  cases met with
  | @ok a after holds same => exact second a after same holds
  | error error after => exact .error error after

/-- Sequencing after a parse of which only the value matters. -/
theorem MeetsAt.passing {mid : α → Prop} {good : β → Token → Prop} {f g : α → Parse β}
    (first : MeetsAt allowed pre (fun a _ => mid a) x y)
    (second : ∀ a, mid a → MeetsAt allowed (fun _ => True) good (f a) (g a)) :
    MeetsAt allowed pre good (x >>= f) (y >>= g) :=
  first.bind fun a state same holds => second a holds state same trivial

/-! ## Single tokens -/

/-- A parse of its own, which leaves the setting of `in` as it is. -/
theorem meets_of_follows {good : α → Prop}
    (follows : ∀ bound,
      (Terms.counting bound fun _ => True).FollowsAt pre false (fun _ => false) good x x) :
    MeetsAt allowed pre (fun a _ => good a) x x := by
  intro state same holds
  have ends := follows state.left state ⟨trivial, trivial, Nat.le_refl _⟩ holds
  generalize x state = left at ends ⊢
  cases ends with
  | ok holds moved _ => exact .ok holds (moved.allowIn.trans same)
  | error => exact .error _ _
  | gaveUp gives _ _ => exact gives.elim

section

variable {good : β → Token → Prop}

/-- Looking at the current token, which stays the current one. -/
theorem meets_peek {f g : Token → Parse β}
    (second : ∀ token, pre token → MeetsAt allowed (· = token) good (f token) (g token)) :
    MeetsAt allowed pre good (peek >>= f) (peek >>= g) :=
  fun state same holds => second _ holds state same rfl

/-- Looking at the kind of the current token. -/
theorem meets_peekKind {f g : Kind → Parse β}
    (second : ∀ kind, MeetsAt allowed (fun now => now.kind = kind ∧ pre now) good
      (f kind) (g kind)) :
    MeetsAt allowed pre good (peekKind >>= f) (peekKind >>= g) :=
  fun state same holds => second _ state same ⟨rfl, holds⟩

theorem meets_allowsIn {f g : Bool → Parse β}
    (second : MeetsAt allowed pre good (f allowed) (g allowed)) :
    MeetsAt allowed pre good (allowsIn >>= f) (allowsIn >>= g) := by
  rintro state rfl holds
  exact second state rfl holds

theorem meets_atWord {f g : Bool → Parse β} (word : String)
    (second : ∀ found, MeetsAt allowed pre good (f found) (g found)) :
    MeetsAt allowed pre good (atWord word >>= f) (atWord word >>= g) :=
  fun state same holds => second _ state same holds

end

theorem meets_advance : MeetsAt allowed pre (fun _ _ => True) advance advance := by
  intro state same _
  obtain ⟨current, upcoming, depth, allowIn⟩ := state
  unfold advance
  cases upcoming with
  | nil => exact .ok trivial same
  | cons item upcoming =>
    cases item with
    | ok token => exact .ok trivial same
    | error error => exact .error _ _

/-- Sequencing after a token, whichever it is. -/
theorem meets_advancing {good : β → Token → Prop} {f g : Token → Parse β}
    (second : ∀ token, MeetsAt allowed (fun _ => True) good (f token) (g token)) :
    MeetsAt allowed pre good (advance >>= f) (advance >>= g) :=
  meets_advance.passing fun token _ => second token

theorem meets_unexpected {expected : Expected} :
    MeetsAt allowed pre good (unexpected expected) (unexpected expected) :=
  meets_peek fun _ _ => meets_throw

/-- Consuming a token that need not be there. What was known of the current token holds of the one
that was consumed, or still of the current one. -/
theorem meets_eat {kind : Kind} :
    MeetsAt allowed pre
      (fun found now => (found = true → ∃ token, pre token ∧ token.kind = kind) ∧
        (found = false → pre now ∧ now.kind ≠ kind)) (eat kind) (eat kind) := by
  refine meets_peekKind fun found => ?_
  split
  · next is =>
    have shows : ∀ now, now.kind = found ∧ pre now → ∃ token, pre token ∧ token.kind = kind :=
      fun now known => ⟨now, known.2, known.1.trans is⟩
    refine MeetsAt.assuming shows fun known => meets_advancing fun _ => ?_
    exact meets_pure fun _ _ => ⟨fun _ => known, nofun⟩
  · next other =>
    refine meets_pure fun now known => ⟨nofun, fun _ => ⟨known.2, ?_⟩⟩
    exact fun is => other (known.1.symm.trans is)

/-- Sequencing after a token that need not be there. -/
theorem meets_eating {kind : Kind} {good : β → Token → Prop} {f g : Bool → Parse β}
    (second : ∀ found, MeetsAt allowed (fun _ => True) good (f found) (g found)) :
    MeetsAt allowed pre good (eat kind >>= f) (eat kind >>= g) :=
  meets_eat.bind fun found => (second found).at

/-- A choice by whether a token is there, which is consumed in that case. -/
theorem meets_ifEat {kind : Kind} {x x' y y' : Parse α}
    (yes : MeetsAt allowed (fun _ => True) good x x')
    (no : MeetsAt allowed (fun _ => True) good y y') :
    MeetsAt allowed pre good (do if ← eat kind then x else y)
      (do if ← eat kind then x' else y') := by
  refine meets_eating fun found => ?_
  cases found with
  | true => exact yes
  | false => exact no

/-- Sequencing after a token that has to be there. -/
theorem meets_expecting {kind : Kind} {good : β → Token → Prop} {f g : Token → Parse β}
    (second : ∀ token, MeetsAt allowed (fun _ => True) good (f token) (g token)) :
    MeetsAt allowed pre good (expect kind >>= f) (expect kind >>= g) := by
  have expects : MeetsAt allowed pre (fun _ _ => True) (expect kind) (expect kind) := by
    refine meets_peekKind fun found => ?_
    split
    · exact meets_advance
    · exact meets_unexpected
  exact expects.passing fun token _ => second token

/-- A result that does not depend on the state. -/
theorem meets_ofExcept {good : α → Prop} {left right : Except Error α}
    (gives : Gives (fun _ => False) good left right) :
    MeetsAt allowed pre (fun a _ => good a) (ofExcept left) (ofExcept right) := by
  cases gives with
  | ok holds => exact meets_value holds
  | error error => exact meets_throw
  | gaveUp never => exact never.elim

/-! ## Context -/

/-- Inside, `in` is an operator as `inside` says; afterwards it is as before. -/
theorem meets_withAllowIn {inside : Bool} (meets : MeetsAt inside pre good x y) :
    MeetsAt allowed pre good (withAllowIn inside x) (withAllowIn inside y) := by
  intro state same holds
  have met := meets { state with allowIn := inside } rfl holds
  unfold withAllowIn
  generalize x { state with allowIn := inside } = left,
    y { state with allowIn := inside } = right at met ⊢
  cases met with
  | ok holds _ => exact .ok holds same
  | error error after => exact .error _ _

theorem meets_nested (meets : MeetsAt allowed pre good x y) :
    MeetsAt allowed pre good (nested x) (nested y) := by
  intro state same holds
  have met := meets { state with depth := state.depth + 1 } same holds
  unfold nested
  generalize x { state with depth := state.depth + 1 } = left,
    y { state with depth := state.depth + 1 } = right at met ⊢
  cases met with
  | ok holds same => exact .ok holds same
  | error error after => exact .error _ _

theorem meets_tooDeep {limit : Nat} :
    MeetsAt allowed pre good (tooDeep limit) (tooDeep limit) :=
  fun _ _ _ => .error _ _

/-! ## Repetition -/

section

variable {good : α → Prop}

/-- A loop keeps what each of its rounds keeps. -/
theorem meets_loop {step step' : α → Parse (Step α)}
    (round : ∀ a, good a → Meets allowed (fun found => good found.value) (step a) (step' a))
    {a : α} (start : good a) :
    MeetsAt allowed pre (fun a _ => good a) (loop step a) (loop step' a) := by
  have rounds : ∀ (ahead : List (Except Error Token)) (a : α), good a →
      Meets allowed good (repeatOver step ahead a) (repeatOver step' ahead a) := by
    -- The induction is on the pieces that bound the number of rounds.
    intro ahead
    induction ahead with
    | nil =>
      intro a kept
      show Meets allowed good (Step.value <$> step a) (Step.value <$> step' a)
      rw [map_eq_pure_bind, map_eq_pure_bind]
      exact (round a kept).passing fun found holds => meets_value holds
    | cons item ahead ih =>
      intro a kept
      refine (round a kept).passing fun found holds => ?_
      cases found with
      | again value => exact ih value holds
      | done value => exact meets_value holds
  exact fun state same _ => rounds state.upcoming a start state same trivial

theorem meets_separated {item item' : Parse α} (meets : Meets allowed good item item') :
    MeetsAt allowed pre (fun items _ => ∀ a ∈ items, good a) (separated item)
      (separated item') := by
  have looped : MeetsAt allowed pre (fun items _ => ∀ a ∈ items, good a)
      (loop (separatedStep item) []) (loop (separatedStep item') []) := by
    refine meets_loop (fun items kept => meets.passing fun next holds => ?_) (List.forall_mem_nil _)
    have all : ∀ a ∈ next :: items, good a := List.forall_mem_cons.mpr ⟨holds, kept⟩
    exact meets_ifEat (meets_value all) (meets_value all)
  refine looped.passing fun items holds => meets_value ?_
  simpa using holds

theorem meets_closedList (close : Symbol) {item item' : Parse α}
    (meets : Meets allowed good item item') :
    MeetsAt allowed pre (fun items _ => ∀ a ∈ items, good a) (closedList close item)
      (closedList close item') := by
  have looped : MeetsAt allowed pre (fun items _ => ∀ a ∈ items, good a)
      (loop (closedStep close item) []) (loop (closedStep close item') []) := by
    refine meets_loop (fun items kept => ?_) (List.forall_mem_nil _)
    refine meets_ifEat (meets_value kept) (meets.passing fun next holds => ?_)
    have all : ∀ a ∈ next :: items, good a := List.forall_mem_cons.mpr ⟨holds, kept⟩
    exact meets_ifEat (meets_value all) (meets_expecting fun _ => meets_value all)
  refine looped.passing fun items holds => meets_value ?_
  simpa using holds

end

end Grammar
end Scriptlet
