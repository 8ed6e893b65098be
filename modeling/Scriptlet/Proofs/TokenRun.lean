import Mathlib.Logic.Relation
import Scriptlet.Proofs.Spelling

/-!
# Parses over a run of tokens

A text without lexical errors is a list of tokens and the end of the input. `State.over` is
a parse that stands before such a list, and the primitives of the grammar are described by
the tokens that they take away:

* `Reaches` says that a parse arrives at a value and a state, unless the nesting is too
  deep;
* `Round` is one round of a loop that goes on, and `loop_of_rounds` follows a chain of them;
* `loop_induction` is the rule for loops that have succeeded;
* `reaches_separated` and `separated_over` treat lists with commas in both directions.
-/

namespace Scriptlet
namespace Grammar

variable {α β : Type} {limit depth : Nat} {stop : Token}

/-! ## Results -/

theorem bind_eq_ok_iff {parse : Parse α} {next : α → Parse β} {state final : State} {b : β} :
    (parse >>= next) state = .ok b final ↔
      ∃ a after, parse state = .ok a after ∧ next a after = .ok b final := by
  change EStateM.bind parse next state = _ ↔ _
  unfold EStateM.bind
  constructor
  · intro ran
    split at ran
    · exact ⟨_, _, ‹_›, ran⟩
    · cases ran
  · rintro ⟨a, after, first, second⟩
    simp only [first, second]

theorem pure_eq_ok_iff {state final : State} {a b : α} :
    (pure a : Parse α) state = .ok b final ↔ a = b ∧ state = final := by
  change EStateM.Result.ok a state = _ ↔ _
  simp

theorem peek_eq_ok_iff {state final : State} {token : Token} :
    peek state = .ok token final ↔ state.current = token ∧ state = final := by
  change EStateM.Result.ok state.current state = _ ↔ _
  simp

theorem peekKind_eq_ok_iff {state final : State} {kind : Kind} :
    peekKind state = .ok kind final ↔ state.current.kind = kind ∧ state = final := by
  change EStateM.Result.ok state.current.kind state = _ ↔ _
  simp

/-- The parse arrives at a value and a state, or reports that the nesting is too deep. -/
def Reaches (limit : Nat) (parse : Parse α) (state : State) (a : α) (after : State) : Prop :=
  parse state = .ok a after ∨ ∃ final, parse state = .error (.tooDeep limit) final

theorem Reaches.of_eq {parse : Parse α} {state after : State} {a : α}
    (ran : parse state = .ok a after) : Reaches limit parse state a after :=
  .inl ran

theorem Reaches.bind {parse : Parse α} {next : α → Parse β} {state after final : State}
    {a : α} {b : β} (first : Reaches limit parse state a after)
    (second : Reaches limit (next a) after b final) :
    Reaches limit (parse >>= next) state b final := by
  rcases first with first | ⟨deep, first⟩
  · rcases second with second | ⟨deep, second⟩
    · exact .inl (bind_eq_ok_iff.mpr ⟨a, after, first, second⟩)
    · refine .inr ⟨deep, ?_⟩
      change EStateM.bind parse next state = _
      simp only [EStateM.bind, first, second]
  · refine .inr ⟨deep, ?_⟩
    change EStateM.bind parse next state = _
    simp only [EStateM.bind, first]

theorem Reaches.pure {state : State} {a : α} :
    Reaches limit (Pure.pure a : Parse α) state a state :=
  .inl rfl

/-! ## States over a list of tokens -/

/-- Before the given tokens, of which the first is the lookahead; the end follows. -/
def State.over (stop : Token) (depth : Nat) : List Token → State
  | [] => ⟨stop, [], depth, true⟩
  | token :: rest => ⟨token, (rest ++ [stop]).map .ok, depth, true⟩

@[simp] theorem over_current (tokens : List Token) :
    (State.over stop depth tokens).current = tokens.headD stop := by
  cases tokens <;> rfl

@[simp] theorem over_upcoming_length (tokens : List Token) :
    (State.over stop depth tokens).upcoming.length = tokens.length := by
  cases tokens <;> simp [State.over]

@[simp] theorem over_with_allowIn (tokens : List Token) :
    { State.over stop depth tokens with allowIn := true } = State.over stop depth tokens := by
  cases tokens <;> rfl

@[simp] theorem over_with_depth (tokens : List Token) (depth' : Nat) :
    { State.over stop depth tokens with depth := depth' } = State.over stop depth' tokens := by
  cases tokens <;> rfl

@[simp] theorem over_depth (tokens : List Token) :
    (State.over stop depth tokens).depth = depth := by
  cases tokens <;> rfl

theorem ofText_eq_over {base : Nat} {text : List Char} {tokens : List Token}
    (scanned : Scan.scanAll base text = (tokens ++ [stop]).map .ok) :
    State.ofText base text = .ok (State.over stop 0 tokens) := by
  unfold State.ofText
  rw [scanned]
  cases tokens <;> rfl

theorem advance_over (token : Token) (rest : List Token) :
    advance (State.over stop depth (token :: rest)) = .ok token (State.over stop depth rest) := by
  cases rest <;> rfl

theorem eat_of_eq {kind : Kind} {token : Token} {rest : List Token} (same : token.kind = kind) :
    eat kind (State.over stop depth (token :: rest)) =
      .ok true (State.over stop depth rest) := by
  subst same
  refine bind_eq_ok_iff.mpr ⟨token.kind, _, rfl, ?_⟩
  rw [if_pos rfl]
  exact bind_eq_ok_iff.mpr ⟨token, _, advance_over token rest, rfl⟩

theorem eat_of_ne {kind : Kind} {tokens : List Token}
    (other : (tokens.headD stop).kind ≠ kind) :
    eat kind (State.over stop depth tokens) = .ok false (State.over stop depth tokens) := by
  change (if (State.over stop depth tokens).current.kind = kind then _ else _ : Parse Bool) _ = _
  rw [over_current, if_neg other]
  rfl

theorem expect_of_eq {kind : Kind} {token : Token} {rest : List Token}
    (same : token.kind = kind) :
    expect kind (State.over stop depth (token :: rest)) =
      .ok token (State.over stop depth rest) := by
  subst same
  refine bind_eq_ok_iff.mpr ⟨token.kind, _, rfl, ?_⟩
  rw [if_pos rfl]
  exact advance_over token rest

theorem withAllowIn_over (parse : Parse α) (tokens : List Token) :
    withAllowIn true parse (State.over stop depth tokens) =
      match parse (State.over stop depth tokens) with
      | .ok value after => .ok value { after with allowIn := true }
      | .error error after => .error error { after with allowIn := true } := by
  cases tokens <;> rfl

theorem nested_over (parse : Parse α) (tokens : List Token) :
    nested parse (State.over stop depth tokens) =
      match parse (State.over stop (depth + 1) tokens) with
      | .ok value after => .ok value { after with depth := after.depth - 1 }
      | .error error after => .error error after := by
  cases tokens <;> rfl

theorem Reaches.withAllowIn {parse : Parse α} {tokens after : List Token} {a : α}
    (ran : Reaches limit parse (State.over stop depth tokens) a (State.over stop depth after)) :
    Reaches limit (Grammar.withAllowIn true parse) (State.over stop depth tokens) a
      (State.over stop depth after) := by
  rcases ran with ran | ⟨final, ran⟩
  · left; simp only [withAllowIn_over, ran, over_with_allowIn]
  · right; exact ⟨_, by simp only [withAllowIn_over, ran]; rfl⟩

theorem Reaches.nested {parse : Parse α} {tokens after : List Token} {a : α}
    (ran : Reaches limit parse (State.over stop (depth + 1) tokens) a
      (State.over stop (depth + 1) after)) :
    Reaches limit (Grammar.nested parse) (State.over stop depth tokens) a
      (State.over stop depth after) := by
  rcases ran with ran | ⟨final, ran⟩
  · left; simp only [nested_over, ran, over_depth, Nat.add_sub_cancel, over_with_depth]
  · right; exact ⟨final, by simp only [nested_over, ran]⟩

/-! ## Tokens that were taken -/

theorem eat_over {kind : Kind} {tokens : List Token} {found : Bool} {after : State}
    (ends : stop.kind = .eof) (real : kind ≠ .eof)
    (ran : eat kind (State.over stop depth tokens) = .ok found after) :
    (found = true ∧ ∃ token rest, tokens = token :: rest ∧ token.kind = kind ∧
        after = State.over stop depth rest) ∨
      (found = false ∧ (tokens.headD stop).kind ≠ kind ∧
        after = State.over stop depth tokens) := by
  by_cases same : (tokens.headD stop).kind = kind
  · cases tokens with
    | nil => exact absurd (same.symm.trans ends) real
    | cons token rest =>
      have same : token.kind = kind := same
      rw [eat_of_eq same] at ran
      cases ran
      exact .inl ⟨rfl, token, rest, rfl, same, rfl⟩
  · rw [eat_of_ne same] at ran
    cases ran
    exact .inr ⟨rfl, same, rfl⟩

theorem expect_over {kind : Kind} {tokens : List Token} {token : Token} {after : State}
    (ends : stop.kind = .eof) (real : kind ≠ .eof)
    (ran : expect kind (State.over stop depth tokens) = .ok token after) :
    ∃ rest, tokens = token :: rest ∧ token.kind = kind ∧ after = State.over stop depth rest := by
  by_cases same : (tokens.headD stop).kind = kind
  · cases tokens with
    | nil => exact absurd (same.symm.trans ends) real
    | cons first rest =>
      have same : first.kind = kind := same
      rw [expect_of_eq same] at ran
      cases ran
      exact ⟨rest, rfl, same, rfl⟩
  · change (if (State.over stop depth tokens).current.kind = kind then _ else _ : Parse Token) _ =
      _ at ran
    rw [over_current, if_neg same] at ran
    cases ran

theorem withAllowIn_over_eq_ok {parse : Parse α} {tokens : List Token} {a : α} {final : State}
    (ran : withAllowIn true parse (State.over stop depth tokens) = .ok a final) :
    ∃ after, parse (State.over stop depth tokens) = .ok a after ∧
      final = { after with allowIn := true } := by
  rw [withAllowIn_over] at ran
  split at ran
  · cases ran; exact ⟨_, ‹_›, rfl⟩
  · cases ran

theorem nested_eq_ok {parse : Parse α} {state final : State} {a : α}
    (ran : nested parse state = .ok a final) :
    ∃ after, parse { state with depth := state.depth + 1 } = .ok a after ∧
      final = { after with depth := after.depth - 1 } := by
  change (match parse { state with depth := state.depth + 1 } with
    | .ok value after => .ok value { after with depth := after.depth - 1 }
    | .error error after => .error error after : EStateM.Result Error State α) = _ at ran
  split at ran
  · cases ran; exact ⟨_, ‹_›, rfl⟩
  · cases ran

theorem nested_over_eq_ok {parse : Parse α} {tokens : List Token} {a : α} {final : State}
    (ran : nested parse (State.over stop depth tokens) = .ok a final) :
    ∃ after, parse (State.over stop (depth + 1) tokens) = .ok a after ∧
      final = { after with depth := after.depth - 1 } := by
  obtain ⟨after, body, same⟩ := nested_eq_ok ran
  rw [over_depth, over_with_depth] at body
  exact ⟨after, body, same⟩

/-! ## Loops -/

section Loops

variable {step : α → Parse (Step α)}

/-- Whether a loop goes on after a step. -/
def Step.goesOn : Step α → Bool
  | .again _ => true
  | .done _ => false

theorem repeatOver_done {ahead : List (Except Error Token)} {value result : α}
    {state final : State} (ended : step value state = .ok (.done result) final) :
    repeatOver step ahead value state = .ok result final := by
  cases ahead with
  | nil => exact bind_eq_ok_iff.mpr ⟨_, _, ended, rfl⟩
  | cons piece ahead => exact bind_eq_ok_iff.mpr ⟨_, _, ended, rfl⟩

theorem repeatOver_error {ahead : List (Except Error Token)} {value : α} {error : Error}
    {state final : State} (failed : step value state = .error error final) :
    repeatOver step ahead value state = .error error final := by
  cases ahead with
  | nil =>
    change EStateM.bind (step value) _ state = _
    simp only [EStateM.bind, failed]
  | cons piece ahead =>
    change EStateM.bind (step value) _ state = _
    simp only [EStateM.bind, failed]

theorem repeatOver_again {piece : Except Error Token} {ahead : List (Except Error Token)}
    {value next : α} {state after : State} (again : step value state = .ok (.again next) after) :
    repeatOver step (piece :: ahead) value state = repeatOver step ahead next after := by
  change EStateM.bind (step value) _ state = _
  simp only [EStateM.bind, again]

/-- One round of a loop that goes on and takes at least a token. -/
def Round (step : α → Parse (Step α)) (source target : α × State) : Prop :=
  step source.1 source.2 = .ok (.again target.1) target.2 ∧
    target.2.upcoming.length < source.2.upcoming.length

/-- After some rounds the loop stands where the last of them left it, with enough rounds to
go. -/
theorem repeatOver_of_rounds {ahead : List (Except Error Token)} {value next : α}
    {state after : State} (rounds : Relation.ReflTransGen (Round step) (value, state) (next, after))
    (enough : state.upcoming.length ≤ ahead.length) :
    ∃ left : List (Except Error Token), after.upcoming.length ≤ left.length ∧
      repeatOver step ahead value state = repeatOver step left next after := by
  generalize source_eq : (value, state) = source at rounds
  generalize target_eq : (next, after) = target at rounds
  induction rounds generalizing next after with
  | refl =>
    cases source_eq.trans target_eq.symm
    exact ⟨ahead, enough, rfl⟩
  | @tail middle target _ round ih =>
    subst target_eq
    obtain ⟨again, less⟩ := round
    obtain ⟨left, bound, same⟩ := ih rfl
    -- The round takes a token, so there is one left to count it.
    cases left with
    | nil => exact absurd bound (Nat.not_le.mpr (Nat.lt_of_le_of_lt (Nat.zero_le _) less))
    | cons piece left =>
      refine ⟨left, ?_, same.trans (repeatOver_again again)⟩
      simp only [List.length_cons] at bound less
      omega

/-- A loop that has succeeded. What holds before a round holds after it, and a round that
goes on takes at least a token; both have to be known only of values that are `good`, and
only a good value leads to a good result. -/
theorem loop_induction (good : α → Prop) (holds ending : α → State → Prop)
    (again : ∀ {value next state after}, step value state = .ok (.again next) after →
      good next → good value ∧ (holds value state →
        holds next after ∧ after.upcoming.length < state.upcoming.length))
    (done : ∀ {value result state final}, step value state = .ok (.done result) final →
      good result → good value ∧ (holds value state → ending result final))
    {value result : α} {state final : State} (start : good value → holds value state)
    (ran : loop step value state = .ok result final) (wanted : good result) :
    ending result final := by
  -- The rounds are counted by a list of tokens that has at least the length of those ahead.
  suffices main : ∀ (ahead : List (Except Error Token)) {value : α} {state : State},
      (good value → holds value state ∧ state.upcoming.length ≤ ahead.length) →
      repeatOver step ahead value state = .ok result final → ending result final from
    main state.upcoming (fun isGood => ⟨start isGood, Nat.le_refl _⟩) ran
  intro ahead
  induction ahead with
  | nil =>
    intro value state start ran
    obtain ⟨found, after, ran, ended⟩ := bind_eq_ok_iff.mp ran
    cases found with
    | again next =>
      cases ended
      obtain ⟨isGood, keeps⟩ := again ran wanted
      obtain ⟨held, short⟩ := start isGood
      exact absurd (keeps held).2 (by simp only [List.length_nil] at short; omega)
    | done next =>
      cases ended
      obtain ⟨isGood, ends⟩ := done ran wanted
      exact ends (start isGood).1
  | cons piece ahead ih =>
    intro value state start ran
    obtain ⟨found, after, ran, ended⟩ := bind_eq_ok_iff.mp ran
    cases found with
    | again next =>
      refine ih (fun nextGood => ?_) ended
      obtain ⟨isGood, keeps⟩ := again ran nextGood
      obtain ⟨held, short⟩ := start isGood
      obtain ⟨kept, less⟩ := keeps held
      exact ⟨kept, by simp only [List.length_cons] at short; omega⟩
    | done next =>
      cases ended
      obtain ⟨isGood, ends⟩ := done ran wanted
      exact ends (start isGood).1

theorem Reaches.repeatOver_done {ahead : List (Except Error Token)} {value result : α}
    {state final : State} (ended : Reaches limit (step value) state (.done result) final) :
    Reaches limit (repeatOver step ahead value) state result final := by
  rcases ended with ended | ⟨deep, failed⟩
  · exact .inl (Grammar.repeatOver_done ended)
  · exact .inr ⟨deep, repeatOver_error failed⟩

theorem Reaches.repeatOver_again {piece : Except Error Token}
    {ahead : List (Except Error Token)} {value next result : α} {state after final : State}
    (again : Reaches limit (step value) state (.again next) after)
    (rest : Reaches limit (repeatOver step ahead next) after result final) :
    Reaches limit (repeatOver step (piece :: ahead) value) state result final := by
  rcases again with again | ⟨deep, failed⟩
  · unfold Reaches
    rw [Grammar.repeatOver_again again]
    exact rest
  · exact .inr ⟨deep, repeatOver_error failed⟩

end Loops

/-! ## Lists with commas -/

section Separated

variable {item : Parse α} {pieces : α → List Piece} {inside : Token → Prop}

/-- Whether a parse finds an item before every token that continues no expression. -/
def FindsItem (limit depth : Nat) (stop : Token) (inside : Token → Prop) (item : Parse α)
    (pieces : α → List Piece) (a : α) : Prop :=
  ∀ ⦃before after : List Token⦄, (∀ token ∈ before, inside token) →
    Takes (pieces a) before after → (after.headD stop).kind.suffix = .none →
    Reaches limit item (State.over stop depth before) a (State.over stop depth after)

theorem reaches_repeatOver_separatedStep {items : List α} {left : List Token} (some : items ≠ [])
    (each : ∀ a ∈ items, FindsItem limit depth stop inside item pieces a)
    (ended : (left.headD stop).kind.suffix = .none)
    (closed : (left.headD stop).kind ≠ .symbol .comma)
    (found : List α) {ahead : List (Except Error Token)} {tokens : List Token}
    (enough : tokens.length ≤ ahead.length) (within : ∀ token ∈ tokens, inside token)
    (taken : Takes (commaSeparated (items.map pieces)) tokens left) :
    Reaches limit (repeatOver (separatedStep item) ahead found) (State.over stop depth tokens)
      (items.reverse ++ found) (State.over stop depth left) := by
  induction items generalizing found ahead tokens with
  | nil => exact absurd rfl some
  | cons first rest ih =>
    cases rest with
    | nil =>
      refine .repeatOver_done (.bind (each first (by simp) within taken ended) ?_)
      exact .bind (.of_eq (eat_of_ne closed)) .pure
    | cons second rest =>
      obtain ⟨middle, taken, ⟨comma, after, rfl, isComma, more⟩⟩ := takes_append_iff.mp taken
      have isComma : comma.kind = .symbol .comma := isComma
      have shorter := taken.suffix.length_le
      cases ahead with
      | nil =>
        simp only [List.length_cons, List.length_nil] at shorter enough
        omega
      | cons piece ahead =>
        have round : Reaches limit (separatedStep item found) (State.over stop depth tokens)
            (.again (first :: found)) (State.over stop depth after) := by
          refine .bind (each first (by simp) within taken ?_)
            (.bind (.of_eq (eat_of_eq isComma)) .pure)
          simp only [List.headD_cons, isComma]
          rfl
        -- The accumulator holds the items in reverse.
        have found_eq : (first :: second :: rest).reverse ++ found =
            (second :: rest).reverse ++ first :: found := by simp
        rw [found_eq]
        refine .repeatOver_again round (ih (by simp)
          (fun a member => each a (List.mem_cons_of_mem first member)) _ ?_ ?_ more)
        · simp only [List.length_cons] at shorter enough
          omega
        · intro token member
          exact within token (taken.suffix.subset (List.mem_cons_of_mem comma member))

/-- A list that is written with commas is found before a token that does not go on with
it. -/
theorem reaches_separated {items : List α} {tokens left : List Token} (some : items ≠ [])
    (each : ∀ a ∈ items, FindsItem limit depth stop inside item pieces a)
    (ended : (left.headD stop).kind.suffix = .none)
    (closed : (left.headD stop).kind ≠ .symbol .comma)
    (within : ∀ token ∈ tokens, inside token)
    (taken : Takes (commaSeparated (items.map pieces)) tokens left) :
    Reaches limit (separated item) (State.over stop depth tokens) items
      (State.over stop depth left) := by
  have enough : tokens.length ≤ (State.over stop depth tokens).upcoming.length := by simp
  refine .bind
    (reaches_repeatOver_separatedStep some each ended closed [] enough within taken) ?_
  rw [List.append_nil]
  exact .of_eq (by rw [List.reverse_reverse]; rfl)

/-- Whether the items that a parse finds are written as the tokens that it takes; both have
to be known only of items that are `good`. -/
def TakesItem (depth : Nat) (stop : Token) (inside : Token → Prop) (item : Parse α)
    (pieces : α → List Piece) (good sound : α → Prop) : Prop :=
  ∀ ⦃tokens : List Token⦄ ⦃a : α⦄ ⦃after : State⦄, (∀ token ∈ tokens, inside token) →
    item (State.over stop depth tokens) = .ok a after → good a →
    ∃ left, Takes (pieces a) tokens left ∧ after = State.over stop depth left ∧ sound a

theorem separatedStep_eq_ok {found : Step (List α)} {items : List α} {state final : State}
    (ran : separatedStep item items state = .ok found final) :
    ∃ next after comma, item state = .ok next after ∧
      eat (.symbol .comma) after = .ok comma final ∧
      found = if comma then .again (next :: items) else .done (next :: items) := by
  obtain ⟨next, after, first, rest⟩ := bind_eq_ok_iff.mp ran
  obtain ⟨comma, last, eaten, rest⟩ := bind_eq_ok_iff.mp rest
  cases comma <;> cases rest <;> exact ⟨next, after, _, first, eaten, rfl⟩

/-- A list that was found is written as the tokens that were taken, with commas. -/
theorem separated_over {good sound : α → Prop} {items : List α}
    {tokens : List Token} {final : State} (ends : stop.kind = .eof)
    (each : TakesItem depth stop inside item pieces good sound)
    (within : ∀ token ∈ tokens, inside token)
    (ran : separated item (State.over stop depth tokens) = .ok items final)
    (wanted : ∀ a ∈ items, good a) :
    ∃ left, Takes (commaSeparated (items.map pieces)) tokens left ∧
      final = State.over stop depth left ∧ (∀ a ∈ items, sound a) ∧ items ≠ [] := by
  obtain ⟨found, after, looped, last⟩ := bind_eq_ok_iff.mp ran
  obtain ⟨rfl, rfl⟩ := pure_eq_ok_iff.mp last
  let holds (found : List α) (state : State) : Prop :=
    ∃ left,
      Takes ((found.reverse.map pieces).flatMap (· ++ [.fixed (.symbol .comma)])) tokens left ∧
      state = State.over stop depth left ∧ ∀ a ∈ found, sound a
  let ending (found : List α) (state : State) : Prop :=
    ∃ left, Takes (commaSeparated (found.reverse.map pieces)) tokens left ∧
      state = State.over stop depth left ∧ (∀ a ∈ found, sound a) ∧ found ≠ []
  have start : holds [] (State.over stop depth tokens) := ⟨tokens, rfl, rfl, by simp⟩
  -- The accumulator holds the items in reverse, each of them followed by a comma.
  have ended : ending found after := by
    refine loop_induction (fun found => ∀ a ∈ found, good a) holds ending ?again ?done
      (fun _ => start) looped (by simpa using wanted)
    case again =>
      intro found next state after ran wanted
      obtain ⟨a, middle, comma, first, eaten, same⟩ := separatedStep_eq_ok ran
      cases comma <;> cases same
      refine ⟨fun b member => wanted b (List.mem_cons_of_mem a member), ?_⟩
      rintro ⟨left, taken, rfl, sounds⟩
      have within : ∀ token ∈ left, inside token := fun token member =>
        within token (taken.suffix.subset member)
      obtain ⟨rest, more, rfl, sound⟩ := each within first (wanted a (by simp))
      obtain ⟨_, token, last, rfl, isComma, rfl⟩ | ⟨no, _⟩ := eat_over ends (by simp) eaten
      · refine ⟨⟨last, ?_, rfl, ?_⟩, ?_⟩
        · simpa using taken.append (more.append (.fixed isComma))
        · simpa using ⟨sound, sounds⟩
        · have := more.suffix.length_le
          simp only [over_upcoming_length, List.length_cons] at this ⊢
          omega
      · cases no
    case done =>
      intro found next state after ran wanted
      obtain ⟨a, middle, comma, first, eaten, same⟩ := separatedStep_eq_ok ran
      cases comma <;> cases same
      refine ⟨fun b member => wanted b (List.mem_cons_of_mem a member), ?_⟩
      rintro ⟨left, taken, rfl, sounds⟩
      have within : ∀ token ∈ left, inside token := fun token member =>
        within token (taken.suffix.subset member)
      obtain ⟨rest, more, rfl, sound⟩ := each within first (wanted a (by simp))
      obtain ⟨yes, _⟩ | ⟨_, _, rfl⟩ := eat_over ends (by simp) eaten
      · cases yes
      · refine ⟨rest, ?_, rfl, by simpa using ⟨sound, sounds⟩, by simp⟩
        rw [List.reverse_cons, List.map_append]
        exact (commaSeparated_concat _ _).symm ▸ taken.append more
  obtain ⟨left, taken, at_left, sounds, some⟩ := ended
  exact ⟨left, taken, at_left, by simpa using sounds, by simpa using some⟩

end Separated

end Grammar
end Scriptlet
