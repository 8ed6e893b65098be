import Scriptlet.Grammar.Operand
import Scriptlet.Proofs.Spelling

/-!
# Parses side by side

Two parses over related tokens take the same way: they end with the same tree or with
related errors, and stand before related tokens again. A property of a single parse is the
case of two equal ones, with a relation that holds of what has the property.
-/

namespace Scriptlet

/-- Whether the grammar asks for this at some token of some text. -/
def Expected.arises : Expected → Bool
  | .literal | .binaryOperator | .access => false
  | _ => true

namespace Grammar

/-- A relation between the tokens of two texts, and one between the errors that come of
them. -/
structure Simulation where
  token : Token → Token → Prop
  error : Error → Error → Prop
  kind : ∀ {a b}, token a b → a.kind = b.kind
  lexeme : ∀ {a b}, token a b → a.lexeme = b.lexeme
  newlineBefore : ∀ {a b}, token a b → a.newlineBefore = b.newlineBefore
  number : ∀ {a b}, token a b → a.kind = .number → (Number.Decimal.read? a.lexeme.toList).isSome
  endAt : ∀ {a b}, token a b → token (.endAt a.stop false) (.endAt b.stop false)
  unexpected : ∀ {a b expected}, token a b → expected.arises = true →
    error (.unexpected expected a.description a.start) (.unexpected expected b.description b.start)
  unimplemented : ∀ feature, error (.unimplemented feature) (.unimplemented feature)

/-- Two results that are both values or both errors, and related. -/
inductive Sides {α : Type} (good : α → α → Prop) (bad : Error → Error → Prop) :
    Except Error α → Except Error α → Prop where
  | ok {a b} (related : good a b) : Sides good bad (.ok a) (.ok b)
  | error {e f} (related : bad e f) : Sides good bad (.error e) (.error f)

/-- Two values that are the same and have a property. -/
def Agreed {α : Type} (good : α → Prop) (a b : α) : Prop :=
  a = b ∧ good a

namespace Simulation

variable {α β : Type}

/-- Two states before related tokens. -/
structure States (sim : Simulation) (s t : State) : Prop where
  current : sim.token s.current t.current
  upcoming : List.Forall₂ (Sides sim.token sim.error) s.upcoming t.upcoming
  depth : s.depth = t.depth
  allowIn : s.allowIn = t.allowIn

/-- Two parses that ended the same way. -/
inductive Ends (sim : Simulation) (rel : α → α → Prop) :
    EStateM.Result Error State α → EStateM.Result Error State α → Prop where
  | ok {a b s t} (related : rel a b) (states : sim.States s t) : Ends sim rel (.ok a s) (.ok b t)
  | error {e f s t} (related : sim.error e f) (states : sim.States s t) :
    Ends sim rel (.error e s) (.error f t)

theorem Ends.weaken {sim : Simulation} {rel rel' : α → α → Prop}
    {left right : EStateM.Result Error State α} (ends : sim.Ends rel left right)
    (implies : ∀ a b, rel a b → rel' a b) : sim.Ends rel' left right := by
  cases ends with
  | ok related states => exact .ok (implies _ _ related) states
  | error related states => exact .error related states

/-- Two parses that go the same way from related states, if the current token is as `pre`
says. -/
def RunsAt (sim : Simulation) (pre : Token → Prop) (rel : α → α → Prop) (x y : Parse α) : Prop :=
  ∀ s t, sim.States s t → pre s.current → sim.Ends rel (x s) (y t)

/-- Two parses that go the same way from related states. -/
abbrev Runs (sim : Simulation) (rel : α → α → Prop) (x y : Parse α) : Prop :=
  sim.RunsAt (fun _ => True) rel x y

variable {sim : Simulation} {pre : Token → Prop} {rel : α → α → Prop}

theorem Runs.at {x y : Parse α} (runs : sim.Runs rel x y) : sim.RunsAt pre rel x y :=
  fun s t states _ => runs s t states trivial

/-! ## Sequencing -/

theorem runs_pure {a b : α} (related : rel a b) : sim.RunsAt pre rel (pure a) (pure b) :=
  fun _ _ states _ => .ok related states

theorem runs_throw {e f : Error} (related : sim.error e f) :
    sim.RunsAt pre rel (throw e) (throw f) :=
  fun _ _ states _ => .error related states

theorem RunsAt.bind {next : β → β → Prop} {x y : Parse α} {f g : α → Parse β}
    (first : sim.RunsAt pre rel x y)
    (second : ∀ a b, rel a b → sim.Runs next (f a) (g b)) :
    sim.RunsAt pre next (x >>= f) (y >>= g) := by
  intro s t states holds
  have ends := first s t states holds
  show sim.Ends next (EStateM.bind x f s) (EStateM.bind y g t)
  unfold EStateM.bind
  generalize x s = left, y t = right at ends
  cases ends with
  | ok related states => exact second _ _ related _ _ states trivial
  | error related states => exact .error related states

/-- Sequencing after a tree: the second parses get the same one. -/
theorem RunsAt.with {good : α → Prop} {next : β → β → Prop} {x y : Parse α}
    {f g : α → Parse β} (first : sim.RunsAt pre (Agreed good) x y)
    (second : ∀ a, good a → sim.Runs next (f a) (g a)) :
    sim.RunsAt pre next (x >>= f) (y >>= g) := by
  apply first.bind
  rintro a _ ⟨rfl, holds⟩
  exact second a holds

/-- Sequencing after a parse whose value is not used. -/
theorem RunsAt.andThen {next : β → β → Prop} {x y : Parse α} {f g : Parse β}
    (first : sim.RunsAt pre rel x y) (second : sim.Runs next f g) :
    sim.RunsAt pre next (x >>= fun _ => f) (y >>= fun _ => g) :=
  first.bind fun _ _ _ => second

theorem RunsAt.weaken {rel' : α → α → Prop} {x y : Parse α} (runs : sim.RunsAt pre rel x y)
    (implies : ∀ a b, rel a b → rel' a b) : sim.RunsAt pre rel' x y :=
  fun s t states holds => (runs s t states holds).weaken implies

theorem runs_ofExcept {x y : Except Error α} (sides : Sides rel sim.error x y) :
    sim.RunsAt pre rel (ofExcept x) (ofExcept y) := by
  cases sides with
  | ok related => exact runs_pure related
  | error related => exact runs_throw related

/-! ## Single tokens -/

/-- Looking at the current token, which stays the current one. -/
theorem runs_peek {f g : Token → Parse β} {next : β → β → Prop}
    (second : ∀ a b, sim.token a b → pre a → sim.RunsAt (· = a) next (f a) (g b)) :
    sim.RunsAt pre next (peek >>= f) (peek >>= g) :=
  fun s t states holds => second _ _ states.current holds s t states rfl

/-- Looking at the kind of the current token. -/
theorem runs_peekKind {f g : Kind → Parse β} {next : β → β → Prop}
    (second : ∀ kind,
      sim.RunsAt (fun token => token.kind = kind ∧ pre token) next (f kind) (g kind)) :
    sim.RunsAt pre next (peekKind >>= f) (peekKind >>= g) := by
  intro s t states holds
  show sim.Ends next (f s.current.kind s) (g t.current.kind t)
  rw [← sim.kind states.current]
  exact second s.current.kind s t states ⟨rfl, holds⟩

theorem runs_allowsIn {f g : Bool → Parse β} {next : β → β → Prop}
    (second : ∀ allowed, sim.RunsAt pre next (f allowed) (g allowed)) :
    sim.RunsAt pre next (allowsIn >>= f) (allowsIn >>= g) := by
  intro s t states holds
  show sim.Ends next (f s.allowIn s) (g t.allowIn t)
  rw [← states.allowIn]
  exact second s.allowIn s t states holds

/-- Consuming the current token. -/
theorem runs_advance :
    sim.RunsAt pre (fun a b => sim.token a b ∧ pre a) advance advance := by
  intro s t states holds
  obtain ⟨current, upcoming, depth, allowIn⟩ := s
  obtain ⟨current', upcoming', depth', allowIn'⟩ := t
  obtain ⟨token, items, rfl, rfl⟩ := states
  unfold advance
  cases items with
  | nil => exact .ok ⟨token, holds⟩ ⟨sim.endAt token, .nil, rfl, rfl⟩
  | cons item items =>
    cases item with
    | ok related => exact .ok ⟨token, holds⟩ ⟨related, items, rfl, rfl⟩
    | error related => exact .error related ⟨token, items, rfl, rfl⟩

theorem runs_unexpected {expected : Expected} (arises : expected.arises = true) :
    sim.RunsAt pre rel (Grammar.unexpected expected) (Grammar.unexpected expected) :=
  runs_peek fun _ _ token _ => runs_throw (sim.unexpected token arises)

theorem runs_eat (kind : Kind) :
    sim.RunsAt pre (Agreed fun _ => True) (eat kind) (eat kind) := by
  refine runs_peekKind fun found => ?_
  split
  · exact runs_advance.andThen (runs_pure ⟨rfl, trivial⟩)
  · exact runs_pure ⟨rfl, trivial⟩

theorem runs_expect (kind : Kind) : sim.RunsAt pre sim.token (expect kind) (expect kind) := by
  refine runs_peekKind fun found => ?_
  split
  · exact runs_advance.weaken fun _ _ related => related.1
  · exact runs_unexpected rfl

theorem runs_expectIdentifier :
    sim.RunsAt pre (Agreed fun _ => True) expectIdentifier expectIdentifier :=
  (runs_expect .identifier).bind fun _ _ token => runs_pure ⟨sim.lexeme token, trivial⟩

theorem runs_atWord {f g : Bool → Parse β} {next : β → β → Prop} (word : String)
    (second : ∀ found, sim.RunsAt pre next (f found) (g found)) :
    sim.RunsAt pre next (atWord word >>= f) (atWord word >>= g) := by
  intro s t states holds
  show sim.Ends next (f (s.current.kind = .identifier && s.current.lexeme = word) s)
    (g (t.current.kind = .identifier && t.current.lexeme = word) t)
  rw [← sim.kind states.current, ← sim.lexeme states.current]
  exact second _ s t states holds

theorem runs_expectWord (word : String) :
    sim.RunsAt pre (Agreed fun _ => True) (expectWord word) (expectWord word) := by
  refine runs_atWord word fun found => ?_
  split
  · exact runs_advance.andThen (runs_pure ⟨rfl, trivial⟩)
  · exact runs_unexpected rfl

/-! ## Context -/

theorem runs_withAllowIn (allowIn : Bool) {x y : Parse α} (runs : sim.RunsAt pre rel x y) :
    sim.RunsAt pre rel (withAllowIn allowIn x) (withAllowIn allowIn y) := by
  intro s t states holds
  have ends := runs { s with allowIn } { t with allowIn }
    ⟨states.current, states.upcoming, states.depth, rfl⟩ holds
  unfold withAllowIn
  generalize x { s with allowIn } = left, y { t with allowIn } = right at ends
  cases ends with
  | ok related after =>
    exact .ok related ⟨after.current, after.upcoming, after.depth, states.allowIn⟩
  | error related after =>
    exact .error related ⟨after.current, after.upcoming, after.depth, states.allowIn⟩

theorem runs_nested {x y : Parse α} (runs : sim.RunsAt pre rel x y) :
    sim.RunsAt pre rel (nested x) (nested y) := by
  intro s t states holds
  have deeper := congrArg (· + 1) states.depth
  have ends := runs { s with depth := s.depth + 1 } { t with depth := t.depth + 1 }
    ⟨states.current, states.upcoming, deeper, states.allowIn⟩ holds
  unfold nested
  generalize x { s with depth := s.depth + 1 } = left, y { t with depth := t.depth + 1 } = right
    at ends
  cases ends with
  | ok related after =>
    exact .ok related
      ⟨after.current, after.upcoming, congrArg (· - 1) after.depth, after.allowIn⟩
  | error related after => exact .error related after

theorem runs_tooDeep {limit : Nat} (related : sim.error (.tooDeep limit) (.tooDeep limit)) :
    sim.RunsAt pre rel (tooDeep limit) (tooDeep limit) :=
  fun _ _ states _ => .error related
    ⟨states.current, states.upcoming, congrArg (· + 1) states.depth, states.allowIn⟩

/-! ## Repetition -/

/-- A loop keeps what each of its rounds keeps, and ends with what a round ends with. -/
theorem runs_loop (keeps ends : α → Prop) {step step' : α → Parse (Step α)}
    (round : ∀ a, keeps a →
      sim.Runs (Agreed fun found => keeps found.value ∧ ends found.value) (step a) (step' a))
    {a : α} (start : keeps a) :
    sim.Runs (Agreed ends) (loop step a) (loop step' a) := by
  -- Related states have equally many tokens ahead, so both loops may go on equally often.
  have rounds : ∀ (ahead ahead' : List (Except Error Token)) (a : α),
      ahead.length = ahead'.length → keeps a →
      sim.Runs (Agreed ends) (repeatOver step ahead a) (repeatOver step' ahead' a) := by
    intro ahead
    induction ahead with
    | nil =>
      intro ahead' a same kept
      obtain rfl := List.length_eq_zero_iff.mp same.symm
      show sim.Runs _ (Step.value <$> step a) (Step.value <$> step' a)
      rw [map_eq_pure_bind, map_eq_pure_bind]
      exact (round a kept).with fun found holds => runs_pure ⟨rfl, holds.2⟩
    | cons item ahead ih =>
      intro ahead' a same kept
      cases ahead' with
      | nil => cases same
      | cons item' ahead' =>
        refine (round a kept).with fun found holds => ?_
        cases found with
        | again value => exact ih ahead' value (Nat.succ.inj same) holds.1
        | done value => exact runs_pure ⟨rfl, holds.2⟩
  intro s t states _
  exact rounds s.upcoming t.upcoming a states.upcoming.length_eq start s t states trivial

/-- A list with commas has at least one item. -/
theorem runs_separated {good : α → Prop} {item item' : Parse α}
    (runs : sim.Runs (Agreed good) item item') :
    sim.RunsAt pre (Agreed fun items => items ≠ [] ∧ ∀ a ∈ items, good a) (separated item)
      (separated item') := by
  have round : ∀ items : List α, (∀ a ∈ items, good a) →
      sim.Runs (Agreed fun found => (∀ a ∈ found.value, good a) ∧
        (found.value ≠ [] ∧ ∀ a ∈ found.value, good a))
        (separatedStep item items) (separatedStep item' items) := by
    intro items kept
    refine runs.with fun next holds => (runs_eat _).with fun more _ => ?_
    have all : ∀ a ∈ next :: items, good a := List.forall_mem_cons.mpr ⟨holds, kept⟩
    split <;> exact runs_pure ⟨rfl, all, List.cons_ne_nil _ _, all⟩
  have looped := runs_loop (∀ a ∈ ·, good a) (fun items => items ≠ [] ∧ ∀ a ∈ items, good a)
    round (List.forall_mem_nil _)
  refine looped.at.with fun items holds => runs_pure ⟨rfl, ?_, ?_⟩
  · simpa using holds.1
  · simpa using holds.2

theorem runs_closedList {good : α → Prop} (close : Symbol) {item item' : Parse α}
    (runs : sim.Runs (Agreed good) item item') :
    sim.RunsAt pre (Agreed fun items => ∀ a ∈ items, good a) (closedList close item)
      (closedList close item') := by
  have round : ∀ items : List α, (∀ a ∈ items, good a) →
      sim.Runs (Agreed fun found => (∀ a ∈ found.value, good a) ∧ ∀ a ∈ found.value, good a)
        (closedStep close item items) (closedStep close item' items) := by
    intro items kept
    refine (runs_eat _).with fun closed _ => ?_
    split
    · exact runs_pure ⟨rfl, kept, kept⟩
    · refine runs.with fun next holds => (runs_eat _).with fun more _ => ?_
      have all : ∀ a ∈ next :: items, good a := List.forall_mem_cons.mpr ⟨holds, kept⟩
      split
      · exact runs_pure ⟨rfl, all, all⟩
      · exact (runs_expect _).andThen (runs_pure ⟨rfl, all, all⟩)
  have looped := runs_loop (∀ a ∈ ·, good a) (∀ a ∈ ·, good a) round (List.forall_mem_nil _)
  refine looped.at.with fun items holds => runs_pure ⟨rfl, ?_⟩
  simpa using holds

end Simulation
end Grammar
end Scriptlet
