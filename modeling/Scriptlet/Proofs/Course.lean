import Scriptlet.Proofs.Nodes
import Scriptlet.Proofs.TokenRun

/-!
# The course of a parse

What a parse does to its state, whatever is read. Two parses of the same tokens are followed
side by side; they differ in the parses of the level further in. What is known of a single
parse is the case of two equal ones.

* `Moved` and `Stopped` say what a parse leaves of its state, after a success and after an
  error: levels are left again, the setting of `in` is restored, and tokens are only taken;
* `Terms` says what is known where the two parses start, what holds of the trees, and when the
  first parse may give up where the second one goes on;
* `Terms.Follows` says that the two parses take the same course. It tells whether a token was
  taken, which every round of a loop has to do, and whether one was taken `late`, that is since
  the construct began. Before its first token a construct uses only some of the parses further
  in: that is what makes the recursion of the grammar end;
* `follows_loop` is the rule for loops. Every other primitive of the grammar has its own rule.
-/

namespace Scriptlet
namespace Grammar

variable {α β : Type}

/-! ## What is left of a state -/

/-- How many tokens there are to take, up to the end of the input. -/
def State.left (state : State) : Nat :=
  state.upcoming.length + if state.current.kind = .eof then 0 else 1

/-- What a parse leaves of its state if it succeeds; `some` if it has taken a token. -/
structure Moved (some : Bool) (before after : State) : Prop where
  depth : after.depth = before.depth
  allowIn : after.allowIn = before.allowIn
  upcoming : after.upcoming <:+ before.upcoming
  left : after.left + some.toNat ≤ before.left

/-- What a parse leaves of its state if it fails. -/
structure Stopped (before after : State) : Prop where
  depth : before.depth ≤ after.depth
  allowIn : after.allowIn = before.allowIn
  upcoming : after.upcoming <:+ before.upcoming

theorem Moved.none (state : State) : Moved false state state :=
  ⟨rfl, rfl, List.suffix_rfl, Nat.le_refl _⟩

theorem Stopped.none (state : State) : Stopped state state :=
  ⟨Nat.le_refl _, rfl, List.suffix_rfl⟩

/-- Two parses one after another, of which one took a token if `some''` says so. -/
theorem Moved.trans {some some' some'' : Bool} {first second third : State}
    (before : Moved some first second) (after : Moved some' second third)
    (either : some''.toNat ≤ some.toNat + some'.toNat) : Moved some'' first third := by
  refine ⟨after.depth.trans before.depth, after.allowIn.trans before.allowIn,
    after.upcoming.trans before.upcoming, ?_⟩
  have := before.left
  have := after.left
  omega

theorem Moved.stopped {some : Bool} {first second third : State}
    (before : Moved some first second) (after : Stopped second third) : Stopped first third :=
  ⟨Nat.le_trans (Nat.le_of_eq before.depth.symm) after.depth,
    after.allowIn.trans before.allowIn, after.upcoming.trans before.upcoming⟩

theorem Moved.fewer {some some' : Bool} {before after : State} (moved : Moved some before after)
    (fewer : some'.toNat ≤ some.toNat) : Moved some' before after :=
  ⟨moved.depth, moved.allowIn, moved.upcoming,
    Nat.le_trans (Nat.add_le_add_left fewer _) moved.left⟩

/-! ## Terms -/

/-- A parse of the level further in. -/
inductive Part where
  | expr
  | stmt
  | newExpr

/-- On which terms two parses of the same tokens are followed. -/
structure Terms where
  /-- What is known of the token of lookahead and of the pieces after it. -/
  ahead : Token → List (Except Error Token) → Prop
  take : ∀ {current next upcoming}, ahead current (.ok next :: upcoming) → ahead next upcoming
  skip : ∀ {current error upcoming},
    ahead current (.error error :: upcoming) → ahead current upcoming
  stay : ∀ {current}, ahead current [] → ahead (.endAt current.stop false) []
  /-- The levels at which the parses are followed. -/
  depth : Nat → Prop
  /-- The errors after which the second parse may do anything. -/
  givesUp : Error → Prop
  /-- What holds of every node of a tree. Only templates need a reason for it. -/
  node : Node → Prop
  expr : ∀ {expr : Expr}, (∀ head spans, expr ≠ .template head spans) → node (.expr expr)
  stmt : ∀ stmt, node (.stmt stmt)
  /-- How many tokens there are to take where the construct begins, or more. -/
  bound : Nat
  /-- The parses further in that the construct uses before it takes a token. -/
  early : Part → Prop

/-- Two results that are the same and have a property, unless the first one is given up. -/
inductive Gives (givesUp : Error → Prop) (good : α → Prop) :
    Except Error α → Except Error α → Prop where
  | ok {a : α} (holds : good a) : Gives givesUp good (.ok a) (.ok a)
  | error (error : Error) : Gives givesUp good (.error error) (.error error)
  | gaveUp {error : Error} {other : Except Error α} (gives : givesUp error) :
    Gives givesUp good (.error error) other

theorem Gives.of_eq {givesUp : Error → Prop} {good : α → Prop} {left right : Except Error α}
    (same : left = right) (holds : ∀ a, left = .ok a → good a) :
    Gives givesUp good left right := by
  subst same
  cases left with
  | ok a => exact .ok (holds a rfl)
  | error error => exact .error error

theorem Gives.holds {givesUp : Error → Prop} {good : α → Prop} {a : α} {other : Except Error α}
    (gives : Gives givesUp good (.ok a) other) : good a := by
  cases gives with
  | ok holds => exact holds

theorem Gives.weaken {givesUp : Error → Prop} {good good' : α → Prop}
    {left right : Except Error α} (gives : Gives givesUp good left right)
    (implies : ∀ a, good a → good' a) : Gives givesUp good' left right := by
  cases gives with
  | ok holds => exact .ok (implies _ holds)
  | error error => exact .error error
  | gaveUp gives => exact .gaveUp gives

theorem Gives.eq {givesUp : Error → Prop} {good : α → Prop} {left right : Except Error α}
    (gives : Gives givesUp good left right)
    (never : ∀ error, left = .error error → ¬ givesUp error) : left = right := by
  cases gives with
  | ok => rfl
  | error => rfl
  | gaveUp gives => exact (never _ rfl gives).elim

namespace Terms

variable {terms : Terms} {pre : Token → Prop} {late : Bool} {took : α → Bool} {good : α → Prop}

/-- Whether a token can be the token of lookahead. -/
def Knows (terms : Terms) (token : Token) : Prop :=
  ∃ upcoming, terms.ahead token upcoming

/-- Whether a state meets the terms; `late` if a token was taken since the construct began. -/
structure Stands (terms : Terms) (late : Bool) (state : State) : Prop where
  ahead : terms.ahead state.current state.upcoming
  depth : terms.depth state.depth
  left : state.left + late.toNat ≤ terms.bound

theorem Stands.after {some : Bool} {before after : State} (stands : terms.Stands late before)
    (moved : Moved some before after) (ahead : terms.ahead after.current after.upcoming) :
    terms.Stands (some || late) after := by
  refine ⟨ahead, moved.depth ▸ stands.depth, ?_⟩
  have taken := moved.left
  have within := stands.left
  cases some with
  | false => exact Nat.le_trans (Nat.add_le_add_right taken _) within
  | true => exact Nat.le_trans taken (Nat.le_trans (Nat.le_add_right _ _) within)

theorem Stands.relax {state : State} (stands : terms.Stands true state) :
    terms.Stands late state :=
  ⟨stands.ahead, stands.depth, Nat.le_trans (Nat.add_le_add_left late.toNat_le _) stands.left⟩

/-- How two parses end that took the same course: with the same tree or error and in the same
state, unless the first one gave up. -/
inductive Ends (terms : Terms) (took : α → Bool) (good : α → Prop) (before : State) :
    EStateM.Result Error State α → EStateM.Result Error State α → Prop where
  | ok {a : α} {after : State} (holds : good a) (moved : Moved (took a) before after)
    (ahead : terms.ahead after.current after.upcoming) :
    Ends terms took good before (.ok a after) (.ok a after)
  | error {error : Error} {after : State} (stopped : Stopped before after)
    (ahead : terms.ahead after.current after.upcoming) :
    Ends terms took good before (.error error after) (.error error after)
  | gaveUp {error : Error} {after : State} {other : EStateM.Result Error State α}
    (gives : terms.givesUp error) (stopped : Stopped before after)
    (ahead : terms.ahead after.current after.upcoming) :
    Ends terms took good before (.error error after) other

theorem Ends.eq {before : State} {left right : EStateM.Result Error State α}
    (ends : terms.Ends took good before left right) (never : ∀ error, ¬ terms.givesUp error) :
    left = right := by
  cases ends with
  | ok => rfl
  | error => rfl
  | gaveUp gives _ _ => exact (never _ gives).elim

/-- Less may be known of what was read, and of whether a token was taken. -/
theorem Ends.weaken {took' : α → Bool} {good' : α → Prop} {before : State}
    {left right : EStateM.Result Error State α} (ends : terms.Ends took good before left right)
    (takes : ∀ a, good a → (took' a).toNat ≤ (took a).toNat) (implies : ∀ a, good a → good' a) :
    terms.Ends took' good' before left right := by
  cases ends with
  | ok holds moved ahead => exact .ok (implies _ holds) (moved.fewer (takes _ holds)) ahead
  | error stopped ahead => exact .error stopped ahead
  | gaveUp gives stopped ahead => exact .gaveUp gives stopped ahead

/-- Two parses that take the same course from every state that meets the terms, if the current
token is as `pre` says. A token was taken if `took` holds of what was read. -/
def FollowsAt (terms : Terms) (pre : Token → Prop) (late : Bool) (took : α → Bool)
    (good : α → Prop) (x y : Parse α) : Prop :=
  ∀ state, terms.Stands late state → pre state.current →
    terms.Ends took good state (x state) (y state)

/-- Two parses that take the same course from every state that meets the terms. -/
abbrev Follows (terms : Terms) (late : Bool) (took : α → Bool) (good : α → Prop)
    (x y : Parse α) : Prop :=
  terms.FollowsAt (fun _ => True) late took good x y

/-- Whether the current token is one that can be taken. -/
def Real (pre : Token → Prop) : Prop :=
  ∀ token, pre token → token.kind ≠ .eof

theorem Real.of_kind {kind : Kind} (real : kind ≠ .eof) :
    Real fun token => token.kind = kind ∧ pre token :=
  fun _ is => is.1 ▸ real

theorem Real.of_eq {token : Token} {kind : Kind} (is : token.kind = kind)
    (real : kind ≠ .eof) : Real (· = token) :=
  fun _ same => same ▸ is ▸ real

theorem Real.of_word {found : Bool} (is : found = true) :
    Real fun token => (found = true → token.kind = .identifier) ∧ pre token :=
  fun _ holds => holds.1 is ▸ nofun

/-! ## Sequencing -/

section

variable {x y : Parse α}

theorem Follows.at (follows : terms.Follows late took good x y) :
    terms.FollowsAt pre late took good x y :=
  fun state stands _ => follows state stands trivial

theorem FollowsAt.ends (follows : terms.FollowsAt (fun _ => True) late took good x y)
    {state : State} (stands : terms.Stands late state) :
    terms.Ends took good state (x state) (y state) :=
  follows state stands trivial

theorem FollowsAt.weaken {took' : α → Bool} {good' : α → Prop}
    (follows : terms.FollowsAt pre late took good x y)
    (takes : ∀ a, (took' a).toNat ≤ (took a).toNat) (implies : ∀ a, good a → good' a) :
    terms.FollowsAt pre late took' good' x y :=
  fun state stands holds => (follows state stands holds).weaken (fun a _ => takes a) implies

/-- What holds when the construct begins holds later too. -/
theorem FollowsAt.later (follows : terms.FollowsAt pre late took good x y) :
    terms.FollowsAt pre true took good x y :=
  fun state stands holds => follows state stands.relax holds

/-- A parse that need not take a token. -/
theorem FollowsAt.freely (follows : terms.FollowsAt pre late took good x y) :
    terms.FollowsAt pre late (fun _ => false) good x y :=
  follows.weaken (fun _ => Nat.zero_le _) fun _ holds => holds

/-- A value that is found without a token of its own. -/
theorem follows_value {a : α} (holds : good a) (none : took a = false) :
    terms.FollowsAt pre late took good (pure a) (pure a) :=
  fun state stands _ => .ok holds (none ▸ .none state) stands.ahead

theorem follows_pure {a : α} (holds : good a) :
    terms.FollowsAt pre late (fun _ => false) good (pure a) (pure a) :=
  follows_value holds rfl

theorem follows_throw {error : Error} :
    terms.FollowsAt pre late took good (throw error) (throw error) :=
  fun state stands _ => .error (.none state) stands.ahead

/-- Sequencing. What the first parse took need not be taken by the second. -/
theorem FollowsAt.bind {mid : α → Prop} {want : β → Bool} {good : β → Prop} {f g : α → Parse β}
    (first : terms.FollowsAt pre late took mid x y)
    (second : ∀ a, mid a →
      terms.Follows (took a || late) (fun b => !took a && want b) good (f a) (g a)) :
    terms.FollowsAt pre late want good (x >>= f) (y >>= g) := by
  intro state stands holds
  have ends := first state stands holds
  show terms.Ends want good state (EStateM.bind x f state) (EStateM.bind y g state)
  unfold EStateM.bind
  -- The results are opened together: after a failure of the first parse nothing follows.
  generalize x state = left, y state = right at ends ⊢
  cases ends with
  | error stopped ahead => exact .error stopped ahead
  | gaveUp gives stopped ahead => exact .gaveUp gives stopped ahead
  | @ok a middle holds moved ahead =>
    have rest := second a holds middle (stands.after moved ahead) trivial
    dsimp only
    generalize f a middle = left, g a middle = right at rest ⊢
    cases rest with
    | ok holds more ahead =>
      refine .ok holds (moved.trans more ?_) ahead
      cases took a <;> cases want _ <;> decide
    | error stopped ahead => exact .error (moved.stopped stopped) ahead
    | gaveUp gives stopped ahead => exact .gaveUp gives (moved.stopped stopped) ahead

/-- Sequencing after a parse that takes a token. -/
theorem FollowsAt.taking {mid : α → Prop} {want : β → Bool} {good : β → Prop}
    {f g : α → Parse β} (first : terms.FollowsAt pre late (fun _ => true) mid x y)
    (second : ∀ a, mid a → terms.Follows true (fun _ => false) good (f a) (g a)) :
    terms.FollowsAt pre late want good (x >>= f) (y >>= g) :=
  first.bind second

/-- Sequencing after a parse that need not take a token. -/
theorem FollowsAt.passing {mid : α → Prop} {want : β → Bool} {good : β → Prop}
    {f g : α → Parse β} (first : terms.FollowsAt pre late (fun _ => false) mid x y)
    (second : ∀ a, mid a → terms.Follows late want good (f a) (g a)) :
    terms.FollowsAt pre late want good (x >>= f) (y >>= g) :=
  first.bind second

theorem follows_ofExcept {left right : Except Error α}
    (gives : Gives terms.givesUp good left right) :
    terms.FollowsAt pre late (fun _ => false) good (ofExcept left) (ofExcept right) := by
  cases gives with
  | ok holds => exact follows_pure holds
  | error error => exact follows_throw
  | gaveUp gives => exact fun state stands _ => .gaveUp gives (.none state) stands.ahead

end

/-! ## Single tokens -/

section

variable {want : β → Bool} {good : β → Prop}

/-- Looking at the current token, which stays the current one. -/
theorem follows_peek {f g : Token → Parse β}
    (second : ∀ token, terms.Knows token → pre token →
      terms.FollowsAt (· = token) late want good (f token) (g token)) :
    terms.FollowsAt pre late want good (peek >>= f) (peek >>= g) :=
  fun state stands holds => second _ ⟨_, stands.ahead⟩ holds state stands rfl

/-- Looking at the kind of the current token. -/
theorem follows_peekKind {f g : Kind → Parse β}
    (second : ∀ kind, terms.FollowsAt (fun token => token.kind = kind ∧ pre token) late want good
      (f kind) (g kind)) :
    terms.FollowsAt pre late want good (peekKind >>= f) (peekKind >>= g) :=
  fun state stands holds => second state.current.kind state stands ⟨rfl, holds⟩

theorem follows_allowsIn {f g : Bool → Parse β}
    (second : ∀ allowed, terms.FollowsAt pre late want good (f allowed) (g allowed)) :
    terms.FollowsAt pre late want good (allowsIn >>= f) (allowsIn >>= g) :=
  fun state stands holds => second state.allowIn state stands holds

/-- Looking whether the current token is the given word. -/
theorem follows_atWord {f g : Bool → Parse β} (word : String)
    (second : ∀ found, terms.FollowsAt
      (fun token => (found = true → token.kind = .identifier) ∧ pre token) late want good
      (f found) (g found)) :
    terms.FollowsAt pre late want good (atWord word >>= f) (atWord word >>= g) := by
  intro state stands holds
  refine second (state.current.kind = .identifier && state.current.lexeme = word) state stands
    ⟨fun found => ?_, holds⟩
  simp only [Bool.and_eq_true, decide_eq_true_eq] at found
  exact found.1

end

/-- Consuming the current token. It counts unless it is the end of the input. -/
theorem ends_advance {state : State} (some : Bool) (stands : terms.Stands late state)
    (real : some = true → state.current.kind ≠ .eof) :
    terms.Ends (fun _ => some) (· = state.current) state (advance state) (advance state) := by
  have ahead := stands.ahead
  obtain ⟨current, upcoming, depth, allowIn⟩ := state
  unfold advance
  cases upcoming with
  | nil =>
    -- Nothing is ahead, so the end of the input becomes the current token and stays it.
    refine .ok rfl ⟨rfl, rfl, List.suffix_rfl, ?_⟩ (terms.stay ahead)
    cases some <;> simp_all [State.left, Token.endAt]
  | cons item upcoming =>
    have shorter := List.suffix_cons item upcoming
    cases item with
    | error error => exact .error ⟨Nat.le_refl _, rfl, shorter⟩ (terms.skip ahead)
    | ok token =>
      refine .ok rfl ⟨rfl, rfl, shorter, ?_⟩ (terms.take ahead)
      have counted : some.toNat ≤ if current.kind = .eof then 0 else 1 := by
        cases some <;> simp_all
      show upcoming.length + (if token.kind = .eof then 0 else 1) + some.toNat ≤
        upcoming.length + 1 + if current.kind = .eof then 0 else 1
      split <;> omega

/-- Consuming a token that is there. -/
theorem follows_advance {took : Token → Bool} (real : Real pre) :
    terms.FollowsAt pre late took (fun token => terms.Knows token ∧ pre token) advance advance := by
  intro state stands holds
  refine (ends_advance true stands fun _ => real _ holds).weaken ?_ ?_
  · exact fun token _ => (took token).toNat_le
  · rintro token rfl
    exact ⟨⟨_, stands.ahead⟩, holds⟩

/-- Sequencing after a token that is there. -/
theorem follows_advancing {want : β → Bool} {good : β → Prop} {f g : Token → Parse β}
    (real : Real pre)
    (second : ∀ token, terms.Knows token ∧ pre token →
      terms.Follows true (fun _ => false) good (f token) (g token)) :
    terms.FollowsAt pre late want good (advance >>= f) (advance >>= g) :=
  (follows_advance real).taking second

theorem follows_unexpected {expected : Expected} :
    terms.FollowsAt pre late took good (unexpected expected) (unexpected expected) :=
  follows_peek fun _ _ _ => follows_throw

theorem follows_eat {kind : Kind} (real : kind ≠ .eof) :
    terms.FollowsAt pre late id (fun _ => True) (eat kind) (eat kind) := by
  refine follows_peekKind fun found => ?_
  split
  · next is =>
    subst is
    exact follows_advancing (.of_kind real) fun _ _ => follows_pure trivial
  · exact follows_value trivial rfl

/-- Sequencing after a token that need not be there. -/
theorem follows_eating {kind : Kind} {want : β → Bool} {good : β → Prop} {f g : Bool → Parse β}
    (real : kind ≠ .eof)
    (second : ∀ found,
      terms.Follows (found || late) (fun b => !found && want b) good (f found) (g found)) :
    terms.FollowsAt pre late want good (eat kind >>= f) (eat kind >>= g) :=
  (follows_eat real).bind fun found _ => second found

/-- A choice by whether a token is there, which is consumed in that case. -/
theorem follows_ifEat {kind : Kind} {x x' y y' : Parse α} (real : kind ≠ .eof)
    (yes : terms.Follows true (fun _ => false) good x x')
    (no : terms.Follows late took good y y') :
    terms.FollowsAt pre late took good (do if ← eat kind then x else y)
      (do if ← eat kind then x' else y') := by
  refine follows_eating real fun found => ?_
  cases found with
  | true => exact yes
  | false => exact no

theorem follows_expect {kind : Kind} {took : Token → Bool} (real : kind ≠ .eof) :
    terms.FollowsAt pre late took terms.Knows (expect kind) (expect kind) := by
  refine follows_peekKind fun found => ?_
  split
  · next is =>
    subst is
    exact (follows_advance (.of_kind real)).weaken (fun _ => Nat.le_refl _) fun _ holds => holds.1
  · exact follows_unexpected

/-- Sequencing after a token that has to be there. -/
theorem follows_expecting {kind : Kind} {want : β → Bool} {good : β → Prop}
    {f g : Token → Parse β} (real : kind ≠ .eof)
    (second : ∀ token, terms.Knows token →
      terms.Follows true (fun _ => false) good (f token) (g token)) :
    terms.FollowsAt pre late want good (expect kind >>= f) (expect kind >>= g) :=
  (follows_expect real).taking second

/-- Consuming the end of the input, which does not count. -/
theorem follows_expectEnd :
    terms.FollowsAt pre late (fun _ => false) (fun _ => True) (expect .eof) (expect .eof) := by
  refine follows_peekKind fun found => ?_
  split
  · intro state stands _
    exact (ends_advance false stands nofun).weaken (fun _ _ => Nat.le_refl _) fun _ _ => trivial
  · exact follows_unexpected

theorem follows_expectIdentifier {took : String → Bool} :
    terms.FollowsAt pre late took (fun _ => True) expectIdentifier expectIdentifier :=
  follows_expecting nofun fun _ _ => follows_pure trivial

theorem follows_expectWord {took : Unit → Bool} (word : String) :
    terms.FollowsAt pre late took (fun _ => True) (expectWord word) (expectWord word) := by
  refine follows_atWord word fun found => ?_
  split
  · next is =>
    exact follows_advancing (.of_word is) fun _ _ => follows_pure trivial
  · exact follows_unexpected

/-! ## Context -/

section

variable {x y : Parse α}

theorem follows_withAllowIn (allowIn : Bool) (follows : terms.FollowsAt pre late took good x y) :
    terms.FollowsAt pre late took good (withAllowIn allowIn x) (withAllowIn allowIn y) := by
  intro state stands holds
  have ends := follows { state with allowIn } ⟨stands.ahead, stands.depth, stands.left⟩ holds
  unfold withAllowIn
  generalize x { state with allowIn } = left, y { state with allowIn } = right at ends ⊢
  cases ends with
  | ok holds moved ahead => exact .ok holds ⟨moved.depth, rfl, moved.upcoming, moved.left⟩ ahead
  | error stopped ahead => exact .error ⟨stopped.depth, rfl, stopped.upcoming⟩ ahead
  | @gaveUp _ _ other gives stopped ahead =>
    exact .gaveUp gives ⟨stopped.depth, rfl, stopped.upcoming⟩ ahead

/-- The terms of the level further in. -/
def deeper (terms : Terms) : Terms :=
  { terms with depth := fun depth => ∃ outer, terms.depth outer ∧ depth = outer + 1 }

/-- A level that is entered is left again after a success. -/
theorem follows_nested (follows : terms.deeper.FollowsAt pre late took good x y) :
    terms.FollowsAt pre late took good (nested x) (nested y) := by
  intro state stands holds
  have ends := follows { state with depth := state.depth + 1 }
    ⟨stands.ahead, ⟨_, stands.depth, rfl⟩, stands.left⟩ holds
  unfold nested
  generalize x { state with depth := state.depth + 1 } = left,
    y { state with depth := state.depth + 1 } = right at ends ⊢
  cases ends with
  | ok holds moved ahead =>
    exact .ok holds ⟨by simp [moved.depth], moved.allowIn, moved.upcoming, moved.left⟩ ahead
  | error stopped ahead =>
    exact .error ⟨Nat.le_of_succ_le stopped.depth, stopped.allowIn, stopped.upcoming⟩ ahead
  | gaveUp gives stopped ahead =>
    exact .gaveUp gives ⟨Nat.le_of_succ_le stopped.depth, stopped.allowIn, stopped.upcoming⟩ ahead

end

theorem follows_tooDeep {limit : Nat} :
    terms.FollowsAt pre late took good (tooDeep limit) (tooDeep limit) :=
  fun _ stands _ => .error ⟨Nat.le_succ _, rfl, List.suffix_rfl⟩ stands.ahead

/-! ## Repetition -/

/-- A loop keeps what each of its rounds keeps, if every round that is not the last takes a
token. The loop takes one if its rounds `always` do. -/
theorem follows_loop {always : Bool} {step step' : α → Parse (Step α)}
    (round : ∀ a, good a → terms.Follows late (fun found => found.goesOn || always)
      (fun found => good found.value) (step a) (step' a))
    {a : α} (start : good a) :
    terms.FollowsAt pre late (fun _ => always) good (loop step a) (loop step' a) := by
  have rounds : ∀ (ahead : List (Except Error Token)) (a : α), good a →
      terms.Follows late (fun _ => always) good (repeatOver step ahead a)
        (repeatOver step' ahead a) := by
    -- The induction is on the pieces that bound the number of rounds.
    intro ahead
    induction ahead with
    | nil =>
      intro a kept
      show terms.Follows late _ _ (Step.value <$> step a) (Step.value <$> step' a)
      rw [map_eq_pure_bind, map_eq_pure_bind]
      refine (round a kept).bind fun found holds => follows_value holds ?_
      cases found <;> cases always <;> rfl
    | cons item ahead ih =>
      intro a kept
      refine (round a kept).bind fun found holds => ?_
      cases found with
      | again value => exact (ih value holds).later.freely
      | done value => exact follows_value holds (by cases always <;> rfl)
  exact fun state stands _ => rounds state.upcoming a start state stands trivial

theorem follows_separatedStep {item item' : Parse α}
    (follows : terms.Follows late (fun _ => true) good item item') {items : List α}
    (kept : ∀ a ∈ items, good a) :
    terms.FollowsAt pre late (fun found => found.goesOn || true)
      (fun found => ∀ a ∈ found.value, good a) (separatedStep item items)
      (separatedStep item' items) := by
  refine FollowsAt.bind follows.at fun next holds => ?_
  have all : ∀ a ∈ next :: items, good a := List.forall_mem_cons.mpr ⟨holds, kept⟩
  exact follows_ifEat nofun (follows_pure all) (follows_pure all)

theorem follows_separated {took : List α → Bool} {item item' : Parse α}
    (follows : terms.Follows late (fun _ => true) good item item') :
    terms.FollowsAt pre late took (fun items => ∀ a ∈ items, good a) (separated item)
      (separated item') := by
  have looped : terms.FollowsAt pre late (fun _ => true) (fun items => ∀ a ∈ items, good a)
      (loop (separatedStep item) []) (loop (separatedStep item') []) :=
    follows_loop (fun _ => follows_separatedStep follows) (List.forall_mem_nil _)
  refine looped.taking fun items holds => follows_pure ?_
  simpa using holds

/-- A list with an end takes a token in every round, whatever its items take. -/
theorem follows_closedStep (close : Symbol) {item item' : Parse α}
    (follows : terms.Follows late (fun _ => false) good item item') {items : List α}
    (kept : ∀ a ∈ items, good a) :
    terms.FollowsAt pre late (fun found => found.goesOn || true)
      (fun found => ∀ a ∈ found.value, good a) (closedStep close item items)
      (closedStep close item' items) := by
  refine follows_ifEat nofun (follows_pure kept) (FollowsAt.bind follows fun next holds => ?_)
  have all : ∀ a ∈ next :: items, good a := List.forall_mem_cons.mpr ⟨holds, kept⟩
  refine follows_ifEat nofun (follows_pure all) ?_
  exact follows_expecting nofun fun _ _ => follows_pure all

theorem follows_closedList {took : List α → Bool} (close : Symbol) {item item' : Parse α}
    (follows : terms.Follows late (fun _ => false) good item item') :
    terms.FollowsAt pre late took (fun items => ∀ a ∈ items, good a) (closedList close item)
      (closedList close item') := by
  have looped : terms.FollowsAt pre late (fun _ => true) (fun items => ∀ a ∈ items, good a)
      (loop (closedStep close item) []) (loop (closedStep close item') []) :=
    follows_loop (fun _ => follows_closedStep close follows) (List.forall_mem_nil _)
  refine looped.taking fun items holds => follows_pure ?_
  simpa using holds

end Terms
end Grammar
end Scriptlet
