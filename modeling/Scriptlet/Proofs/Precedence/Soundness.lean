import Scriptlet.Grammar.Nesting
import Scriptlet.Proofs.Grouping
import Scriptlet.Proofs.TokenRun

/-!
# Expressions that were read are written by their tokens

A plain expression that a parse returns is written as the tokens that the parse took, and
respects the binding powers. `Stands` is the invariant of the loop over suffixes; `Sound`
adds that the loop has stopped because the next token binds too weakly. Expressions that
are not plain need no treatment: a suffix of one of them is not plain either.
-/

namespace Scriptlet

/-- What is known of the tokens before the end of a text on one line. -/
structure Token.Inside (token : Token) : Prop where
  notEnd : token.kind ≠ .eof
  sameLine : token.newlineBefore = false
  truth : token.kind = .boolean → token.lexeme = "true" ∨ token.lexeme = "false"

/-- What may stand anywhere may stand between brackets. -/
theorem Expr.Plain.inBrackets {expr : Expr} {bracketed : Bool} (plain : expr.Plain bracketed) :
    expr.Plain true := by
  cases plain <;> constructor <;> assumption

namespace Grammar

variable {depth least : Nat} {stop : Token} {inner : Inner}

/-- The loop over suffixes stands at an expression that is written as the tokens so far. -/
def Stands (stop : Token) (depth least : Nat) (tokens : List Token) (expr : Expr)
    (after : State) : Prop :=
  ∃ left, Takes expr.pieces tokens left ∧ after = State.over stop depth left ∧
    expr.Plain false ∧ expr.Grouped ∧ expr.fits least ∧
    ∀ power, (left.headD stop).power? = some power → expr.releases power

/-- An expression has been read that is written as the tokens so far and that the next
token does not go on with. -/
def Sound (stop : Token) (depth least : Nat) (tokens : List Token) (expr : Expr)
    (after : State) : Prop :=
  ∃ left, Takes expr.pieces tokens left ∧ after = State.over stop depth left ∧
    expr.Plain false ∧ expr.Grouped ∧ expr.fits least ∧
    ∀ power, (left.headD stop).power? = some power → power < least ∧ expr.releases power

/-- What the parses further in return. -/
structure InnerSound (stop : Token) (inner : Inner) : Prop where
  expr : ∀ ⦃least depth : Nat⦄ ⦃tokens : List Token⦄ ⦃expr : Expr⦄ ⦃after : State⦄,
    (∀ token ∈ tokens, token.Inside) →
    inner.expr least (State.over stop depth tokens) = .ok expr after → expr.Plain true →
    Sound stop depth least tokens expr after
  newExpr : ∀ ⦃state : State⦄ ⦃expr : Expr⦄ ⦃after : State⦄,
    inner.newExpr state = .ok expr after → ¬ expr.Plain true
  template : ∀ ⦃token : Token⦄ ⦃expr : Expr⦄, inner.template token = .ok expr →
    ¬ expr.Plain true

/-! ## Lists -/

theorem takesItem_expr (sound : InnerSound stop inner) :
    TakesItem depth stop Token.Inside (inner.expr 0) Expr.pieces (·.Plain true)
      (fun expr => expr.Plain false ∧ expr.Grouped) := by
  intro tokens expr after within ran plain
  obtain ⟨left, taken, same, plain, grouped, _⟩ := sound.expr within ran plain
  exact ⟨left, taken, same, plain, grouped⟩

theorem takesItem_argument (ends : stop.kind = .eof) (sound : InnerSound stop inner) :
    TakesItem depth stop Token.Inside (argument inner) Argument.pieces (·.expr.Plain true)
      (fun argument => argument.expr.Plain false ∧ argument.expr.Grouped) := by
  intro tokens argument after within ran plain
  obtain ⟨spread, middle, eaten, ran⟩ := bind_eq_ok_iff.mp ran
  obtain ⟨expr, last, read, ended⟩ := bind_eq_ok_iff.mp ran
  obtain ⟨rfl, rfl⟩ := pure_eq_ok_iff.mp ended
  obtain ⟨rfl, token, rest, rfl, is, rfl⟩ | ⟨rfl, _, rfl⟩ := eat_over ends (by simp) eaten
  · have within : ∀ token ∈ rest, token.Inside :=
      fun other member => within other (List.mem_cons_of_mem token member)
    obtain ⟨left, taken, same, plain, grouped, _⟩ := sound.expr within read plain
    exact ⟨left, .cons is taken, same, plain, grouped⟩
  · obtain ⟨left, taken, same, plain, grouped, _⟩ := sound.expr within read plain
    exact ⟨left, taken, same, plain, grouped⟩

theorem sequence_over (ends : stop.kind = .eof) (sound : InnerSound stop inner)
    {tokens : List Token} {expr : Expr} {after : State}
    (within : ∀ token ∈ tokens, token.Inside)
    (ran : sequence inner (State.over stop depth tokens) = .ok expr after)
    (plain : expr.Plain true) :
    ∃ left, Takes expr.pieces tokens left ∧ after = State.over stop depth left ∧
      expr.Grouped := by
  obtain ⟨items, last, read, ended⟩ := bind_eq_ok_iff.mp ran
  rcases items with _ | ⟨first, _ | ⟨second, rest⟩⟩
  · obtain ⟨left, _, _, _, some⟩ :=
      separated_over ends (takesItem_expr sound) within read (by simp)
    exact absurd rfl some
  · obtain ⟨rfl, rfl⟩ := pure_eq_ok_iff.mp ended
    obtain ⟨left, taken, same, each, _⟩ :=
      separated_over ends (takesItem_expr sound) within read (by simpa using plain)
    exact ⟨left, taken, same, (each first (by simp)).2⟩
  · obtain ⟨rfl, rfl⟩ := pure_eq_ok_iff.mp ended
    cases plain with
    | sequence two members =>
      obtain ⟨left, taken, same, each, _⟩ := separated_over ends (takesItem_expr sound) within
        read (fun member isMember => (members member isMember).inBrackets)
      refine ⟨left, ?_, same, rfl, (everyExpr_iff _).mpr fun member isMember =>
        (each member isMember).2⟩
      rw [Expr.pieces, sequencePieces_eq]
      exact taken

theorem arguments_over (ends : stop.kind = .eof) (sound : InnerSound stop inner)
    {tokens : List Token} {arguments : List Argument} {final : State}
    (within : ∀ token ∈ tokens, token.Inside)
    (ran : Grammar.arguments inner (State.over stop depth tokens) = .ok arguments final)
    (plain : ∀ argument ∈ arguments, argument.expr.Plain false) :
    ∃ left, Takes (.fixed (.symbol .openParen) :: (argumentPieces arguments ++
        [.fixed (.symbol .closeParen)])) tokens left ∧ final = State.over stop depth left ∧
      ∀ argument ∈ arguments, argument.expr.Grouped := by
  obtain ⟨paren, middle, opened, inside⟩ := bind_eq_ok_iff.mp ran
  obtain ⟨rest, rfl, is, rfl⟩ := expect_over ends (by simp) opened
  have within : ∀ token ∈ rest, token.Inside :=
    fun other member => within other (List.mem_cons_of_mem paren member)
  obtain ⟨after, body, rfl⟩ := withAllowIn_over_eq_ok inside
  obtain ⟨empty, next, eaten, list⟩ := bind_eq_ok_iff.mp body
  obtain ⟨rfl, close, left, rfl, isClose, rfl⟩ | ⟨rfl, _, rfl⟩ := eat_over ends (by simp) eaten
  · obtain ⟨rfl, rfl⟩ := pure_eq_ok_iff.mp list
    exact ⟨left, .cons is (.fixed isClose), over_with_allowIn left, by simp⟩
  · obtain ⟨items, next, read, closing⟩ := bind_eq_ok_iff.mp list
    obtain ⟨close, last, closed, ended⟩ := bind_eq_ok_iff.mp closing
    obtain ⟨rfl, rfl⟩ := pure_eq_ok_iff.mp ended
    obtain ⟨left, taken, rfl, each, _⟩ := separated_over ends (takesItem_argument ends sound)
      within read (fun argument member => (plain argument member).inBrackets)
    obtain ⟨left, rfl, isClose, rfl⟩ := expect_over ends (by simp) closed
    refine ⟨left, .cons is (.append ?_ (.fixed isClose)), over_with_allowIn left,
      fun argument member => (each argument member).2⟩
    rw [argumentPieces_eq]
    exact taken

theorem indexKey_over (ends : stop.kind = .eof) (sound : InnerSound stop inner)
    {tokens : List Token} {key : Expr} {final : State}
    (within : ∀ token ∈ tokens, token.Inside)
    (ran : indexKey inner (State.over stop depth tokens) = .ok key final)
    (plain : key.Plain true) :
    ∃ left, Takes (.fixed (.symbol .openBracket) :: (key.pieces ++
        [.fixed (.symbol .closeBracket)])) tokens left ∧ final = State.over stop depth left ∧
      key.Grouped := by
  obtain ⟨bracket, middle, opened, later⟩ := bind_eq_ok_iff.mp ran
  obtain ⟨read, next, inside, closing⟩ := bind_eq_ok_iff.mp later
  obtain ⟨close, last, closed, ended⟩ := bind_eq_ok_iff.mp closing
  obtain ⟨rfl, rfl⟩ := pure_eq_ok_iff.mp ended
  obtain ⟨rest, rfl, is, rfl⟩ := expect_over ends (by simp) opened
  have within : ∀ token ∈ rest, token.Inside :=
    fun other member => within other (List.mem_cons_of_mem bracket member)
  obtain ⟨after, body, rfl⟩ := withAllowIn_over_eq_ok inside
  obtain ⟨left, taken, rfl, grouped⟩ := sequence_over ends sound within body plain
  rw [over_with_allowIn] at closed
  obtain ⟨left, rfl, isClose, rfl⟩ := expect_over ends (by simp) closed
  exact ⟨left, .cons is (taken.append (.fixed isClose)), rfl, grouped⟩

theorem memberName_over (ends : stop.kind = .eof) {tokens : List Token} {name : String}
    {after : State} (ran : memberName (State.over stop depth tokens) = .ok name after) :
    ∃ left, Takes [.word name] tokens left ∧ after = State.over stop depth left := by
  obtain ⟨kind, state, peeked, named⟩ := bind_eq_ok_iff.mp ran
  obtain ⟨isKind, rfl⟩ := peekKind_eq_ok_iff.mp peeked
  rw [over_current] at isKind
  split at named
  · next isWord =>
    rw [← isKind] at isWord
    cases tokens with
    | nil => rw [List.headD_nil, ends] at isWord; cases isWord
    | cons token left =>
      obtain ⟨word, last, advanced, ended⟩ := bind_eq_ok_iff.mp named
      rw [advance_over] at advanced
      cases advanced
      obtain ⟨rfl, rfl⟩ := pure_eq_ok_iff.mp ended
      exact ⟨left, .one ⟨isWord, rfl⟩, rfl⟩
  · cases named

/-! ## Calls and accesses -/

/-- What has been read after `?.`. -/
theorem optionalAccess_over (ends : stop.kind = .eof) (sound : InnerSound stop inner)
    {tokens : List Token} {owner : Expr} {access : Access} {after : State}
    (within : ∀ token ∈ tokens, token.Inside)
    (ran : optionalAccess inner (State.over stop depth tokens) = .ok access after)
    (plain : (Expr.optional owner access).Plain true) :
    ∃ left, Takes access.pieces tokens left ∧ after = State.over stop depth left ∧
      access.Every Node.BindsOperands := by
  obtain ⟨kind, state, peeked, body⟩ := bind_eq_ok_iff.mp ran
  obtain ⟨_, rfl⟩ := peekKind_eq_ok_iff.mp peeked
  split at body
  · obtain ⟨arguments, last, read, ended⟩ := bind_eq_ok_iff.mp body
    obtain ⟨rfl, rfl⟩ := pure_eq_ok_iff.mp ended
    cases plain with
    | optionalCall _ each =>
      obtain ⟨left, taken, same, grouped⟩ := arguments_over ends sound within read each
      exact ⟨left, taken, same, (everyArgument_iff _).mpr grouped⟩
  · obtain ⟨key, last, read, ended⟩ := bind_eq_ok_iff.mp body
    obtain ⟨rfl, rfl⟩ := pure_eq_ok_iff.mp ended
    cases plain with
    | optionalIndex _ keyPlain => exact indexKey_over ends sound within read keyPlain
  · obtain ⟨name, last, read, ended⟩ := bind_eq_ok_iff.mp body
    obtain ⟨rfl, rfl⟩ := pure_eq_ok_iff.mp ended
    obtain ⟨left, taken, same⟩ := memberName_over ends read
    exact ⟨left, taken, same, trivial⟩

/-- A call or an access has been read after an expression that yields to it. -/
theorem access_over (ends : stop.kind = .eof) (sound : InnerSound stop inner)
    {middle : List Token} {owner result : Expr} {after : State}
    (within : ∀ token ∈ middle, token.Inside)
    (ran : access inner owner (State.over stop depth middle) = .ok result after)
    (plain : result.Plain true) (grouped : owner.Grouped)
    (yielded : owner.yields accessPower) :
    ∃ kind pieces left, result.pieces = owner.pieces ++ .fixed kind :: pieces ∧
      Takes (.fixed kind :: pieces) middle left ∧ after = State.over stop depth left ∧
      result.Plain false ∧ result.Grouped ∧ (∀ least, result.fits least) ∧
      ∀ power, result.releases power := by
  obtain ⟨kind, state, peeked, body⟩ := bind_eq_ok_iff.mp ran
  obtain ⟨isKind, rfl⟩ := peekKind_eq_ok_iff.mp peeked
  -- Only the end of the input has no token to take, and it begins no access.
  obtain rfl | ⟨token, rest, rfl⟩ : middle = [] ∨ ∃ token rest, middle = token :: rest := by
    cases middle with
    | nil => exact .inl rfl
    | cons token rest => exact .inr ⟨token, rest, rfl⟩
  · obtain rfl : kind = .eof := isKind.symm.trans ends
    cases body
  have isKind : token.kind = kind := isKind
  have withinRest : ∀ token ∈ rest, token.Inside :=
    fun other member => within other (List.mem_cons_of_mem token member)
  split at body
  · obtain ⟨arguments, last, read, ended⟩ := bind_eq_ok_iff.mp body
    obtain ⟨rfl, rfl⟩ := pure_eq_ok_iff.mp ended
    cases plain with
    | call ownerPlain each =>
      obtain ⟨left, taken, same, all⟩ := arguments_over ends sound within read each
      exact ⟨_, _, left, by rw [Expr.pieces], taken, same, .call ownerPlain each,
        ⟨yielded, grouped, (everyArgument_iff _).mpr all⟩, fun _ => rfl, fun _ => rfl⟩
  · obtain ⟨dot, next, advanced, member⟩ := bind_eq_ok_iff.mp body
    obtain ⟨name, last, read, ended⟩ := bind_eq_ok_iff.mp member
    obtain ⟨rfl, rfl⟩ := pure_eq_ok_iff.mp ended
    rw [advance_over] at advanced
    cases advanced
    cases plain with
    | member ownerPlain =>
      obtain ⟨left, taken, same⟩ := memberName_over ends read
      exact ⟨_, _, left, by rw [Expr.pieces], .cons isKind taken, same, .member ownerPlain,
        ⟨yielded, grouped⟩, fun _ => rfl, fun _ => rfl⟩
  · obtain ⟨key, last, read, ended⟩ := bind_eq_ok_iff.mp body
    obtain ⟨rfl, rfl⟩ := pure_eq_ok_iff.mp ended
    cases plain with
    | index ownerPlain keyPlain =>
      obtain ⟨left, taken, same, keyGrouped⟩ := indexKey_over ends sound within read keyPlain
      exact ⟨_, _, left, by rw [Expr.pieces], taken, same, .index ownerPlain keyPlain,
        ⟨yielded, grouped, keyGrouped⟩, fun _ => rfl, fun _ => rfl⟩
  · obtain ⟨dot, next, advanced, chain⟩ := bind_eq_ok_iff.mp body
    obtain ⟨link, last, read, ended⟩ := bind_eq_ok_iff.mp chain
    obtain ⟨rfl, rfl⟩ := pure_eq_ok_iff.mp ended
    rw [advance_over] at advanced
    cases advanced
    obtain ⟨left, taken, same, linked⟩ := optionalAccess_over ends sound withinRest read plain
    refine ⟨_, _, left, by rw [Expr.pieces], .cons isKind taken, same, ?_,
      ⟨yielded, grouped, linked⟩, fun _ => rfl, fun _ => rfl⟩
    cases plain with
    | optionalMember ownerPlain => exact .optionalMember ownerPlain
    | optionalIndex ownerPlain keyPlain => exact .optionalIndex ownerPlain keyPlain
    | optionalCall ownerPlain each => exact .optionalCall ownerPlain each
  · cases body

/-! ## Rounds of the loop -/

/-- What one round of the loop over suffixes has read. -/
inductive Suffixed (inner : Inner) (least : Nat) (left : Expr) (state : State) :
    Expr → State → Prop
  | access {result : Expr} {final : State} (strong : least ≤ accessPower)
      (found : state.current.kind.suffix = .access)
      (ran : access inner left state = .ok result final) :
      Suffixed inner least left state result final
  | update {op : UpdateOp} {token : Token} {final : State}
      (found : state.current.kind.suffix = .update op) (target : left.isTarget)
      (ran : advance state = .ok token final) :
      Suffixed inner least left state (.update op .after left) final
  | conditional {result : Expr} {final : State} (strong : least ≤ conditionalPower)
      (found : state.current.kind.suffix = .conditional)
      (ran : conditional inner left state = .ok result final) :
      Suffixed inner least left state result final
  | operation {powers : Nat × Nat} {result : Expr} {final : State}
      (strong : least ≤ powers.1) (found : state.current.kind.suffix = .operation powers)
      (ran : operate inner powers left state = .ok result final) :
      Suffixed inner least left state result final

theorem checkTarget_eq_ok {expr : Expr} {state final : State}
    (ran : checkTarget expr state = .ok () final) : expr.isTarget ∧ state = final := by
  unfold checkTarget at ran
  split at ran
  · next target => exact ⟨target, (pure_eq_ok_iff.mp ran).2⟩
  · cases ran

theorem suffix_eq_again {left result : Expr} {state final : State}
    (ran : suffix inner least left state = .ok (.again result) final) :
    Suffixed inner least left state result final := by
  obtain ⟨token, middle, peeked, body⟩ := bind_eq_ok_iff.mp ran
  obtain ⟨rfl, rfl⟩ := peek_eq_ok_iff.mp peeked
  generalize found : state.current.kind.suffix = kind at body
  cases kind with
  | access =>
    dsimp only at body
    split at body
    · cases body
    · next strong =>
      obtain ⟨expr, last, read, ended⟩ := bind_eq_ok_iff.mp body
      cases ended
      exact .access (Nat.not_lt.mp strong) found read
  | update op =>
    dsimp only at body
    split at body
    · cases body
    · obtain ⟨_, last, checked, rest⟩ := bind_eq_ok_iff.mp body
      obtain ⟨token, next, advanced, ended⟩ := bind_eq_ok_iff.mp rest
      obtain ⟨target, rfl⟩ := checkTarget_eq_ok checked
      cases ended
      exact .update found target advanced
  | conditional =>
    dsimp only at body
    split at body
    · cases body
    · next strong =>
      obtain ⟨expr, last, read, ended⟩ := bind_eq_ok_iff.mp body
      cases ended
      exact .conditional (Nat.not_lt.mp strong) found read
  | operation powers =>
    obtain ⟨allowed, middle, asked, rest⟩ := bind_eq_ok_iff.mp body
    cases asked
    split at rest
    · cases rest
    · next strong =>
      obtain ⟨expr, last, read, ended⟩ := bind_eq_ok_iff.mp rest
      cases ended
      simp only [Bool.or_eq_true, decide_eq_true_eq, not_or] at strong
      exact .operation (Nat.not_lt.mp strong.2) found read
  | none => cases body

/-- The loop ends at a token that binds too weakly; on one line, and where `in` is an
operator, there is no other reason. -/
theorem suffix_eq_done {left result : Expr} {state final : State}
    (ran : suffix inner least left state = .ok (.done result) final) :
    left = result ∧ state = final ∧
      (state.current.newlineBefore = false → state.allowIn = true →
        ∀ power, state.current.power? = some power → power < least) := by
  obtain ⟨token, middle, peeked, body⟩ := bind_eq_ok_iff.mp ran
  obtain ⟨rfl, rfl⟩ := peek_eq_ok_iff.mp peeked
  unfold Token.power?
  generalize state.current.kind.suffix = kind at body ⊢
  cases kind with
  | access =>
    dsimp only at body
    split at body
    · next weak =>
      cases body
      exact ⟨rfl, rfl, fun _ _ power same => Option.some.inj same ▸ weak⟩
    · obtain ⟨expr, last, read, ended⟩ := bind_eq_ok_iff.mp body
      cases ended
  | update op =>
    dsimp only at body
    split at body
    · next weak =>
      cases body
      refine ⟨rfl, rfl, fun sameLine _ power same => ?_⟩
      rw [sameLine, Bool.or_false, decide_eq_true_eq] at weak
      exact Option.some.inj same ▸ weak
    · obtain ⟨_, last, checked, rest⟩ := bind_eq_ok_iff.mp body
      obtain ⟨token, next, advanced, ended⟩ := bind_eq_ok_iff.mp rest
      cases ended
  | conditional =>
    dsimp only at body
    split at body
    · next weak =>
      cases body
      exact ⟨rfl, rfl, fun _ _ power same => Option.some.inj same ▸ weak⟩
    · obtain ⟨expr, last, read, ended⟩ := bind_eq_ok_iff.mp body
      cases ended
  | operation powers =>
    obtain ⟨asked, middle, isAsked, rest⟩ := bind_eq_ok_iff.mp body
    cases isAsked
    split at rest
    · next weak =>
      cases rest
      refine ⟨rfl, rfl, fun _ allowed power same => ?_⟩
      rw [allowed, Bool.not_true, Bool.and_false, Bool.false_or, decide_eq_true_eq] at weak
      exact Option.some.inj same ▸ weak
    · obtain ⟨expr, last, read, ended⟩ := bind_eq_ok_iff.mp rest
      cases ended
  | none =>
    cases body
    exact ⟨rfl, rfl, fun _ _ => nofun⟩

/-- What reading an operation does after the check of its target. -/
def operateFrom (inner : Inner) (powers : Nat × Nat) (left : Expr) (token : Token) :
    Parse Expr := do
  let _ ← advance
  let right ← inner.expr powers.2
  match token.kind.operation? with
  | some operation => return operation.apply left right
  | none => throw (.unexpected .binaryOperator token.description token.start)

theorem operate_eq_ok {powers : Nat × Nat} {left result : Expr} {state final : State}
    (ran : operate inner powers left state = .ok result final) :
    ∃ operation right token middle, state.current.kind.operation? = some operation ∧
      (operation.assigns → left.isTarget) ∧ advance state = .ok token middle ∧
      inner.expr powers.2 middle = .ok right final ∧ result = operation.apply left right := by
  obtain ⟨token, middle, peeked, body⟩ := bind_eq_ok_iff.mp ran
  obtain ⟨rfl, rfl⟩ := peek_eq_ok_iff.mp peeked
  -- Both branches go on with the same parse, after the check of the target or without it.
  have checked : (state.current.kind.assigns → left.isTarget) ∧
      operateFrom inner powers left state.current state = .ok result final := by
    by_cases assigns : state.current.kind.assigns
    · simp only [assigns, if_true] at body
      obtain ⟨_, last, checked, rest⟩ := bind_eq_ok_iff.mp body
      obtain ⟨target, rfl⟩ := checkTarget_eq_ok checked
      exact ⟨fun _ => target, rest⟩
    · simp only [assigns, if_false, Bool.false_eq_true] at body
      exact ⟨fun is => absurd is assigns, body⟩
  obtain ⟨target, rest⟩ := checked
  obtain ⟨token, next, advanced, rest⟩ := bind_eq_ok_iff.mp rest
  obtain ⟨right, last, read, ended⟩ := bind_eq_ok_iff.mp rest
  cases known : state.current.kind.operation? with
  | none => rw [known] at ended; cases ended
  | some operation =>
    rw [known] at ended
    cases ended
    exact ⟨operation, right, token, next, rfl,
      (Kind.powers?_of_operation known).2 ▸ target, advanced, read, rfl⟩

theorem conditional_eq_ok {test result : Expr} {state final : State}
    (ran : conditional inner test state = .ok result final) :
    ∃ question middle consequent later colon last alternate,
      advance state = .ok question middle ∧
      withAllowIn true (inner.expr 0) middle = .ok consequent later ∧
      expect (.symbol .colon) later = .ok colon last ∧
      inner.expr alternatePower last = .ok alternate final ∧
      result = .conditional test consequent alternate := by
  obtain ⟨question, middle, advanced, rest⟩ := bind_eq_ok_iff.mp ran
  obtain ⟨consequent, later, readThen, rest⟩ := bind_eq_ok_iff.mp rest
  obtain ⟨colon, last, found, rest⟩ := bind_eq_ok_iff.mp rest
  obtain ⟨alternate, _, readElse, ended⟩ := bind_eq_ok_iff.mp rest
  cases ended
  exact ⟨question, middle, consequent, later, colon, last, alternate, advanced, readThen,
    found, readElse, rfl⟩

theorem access_left {owner result : Expr} {state final : State}
    (ran : access inner owner state = .ok result final) (plain : result.Plain true) :
    owner.Plain false := by
  obtain ⟨kind, middle, _, body⟩ := bind_eq_ok_iff.mp ran
  split at body
  · obtain ⟨_, _, _, ended⟩ := bind_eq_ok_iff.mp body
    cases ended
    cases plain; assumption
  · obtain ⟨_, _, _, rest⟩ := bind_eq_ok_iff.mp body
    obtain ⟨_, _, _, ended⟩ := bind_eq_ok_iff.mp rest
    cases ended
    cases plain; assumption
  · obtain ⟨_, _, _, ended⟩ := bind_eq_ok_iff.mp body
    cases ended
    cases plain; assumption
  · obtain ⟨_, _, _, rest⟩ := bind_eq_ok_iff.mp body
    obtain ⟨_, _, _, ended⟩ := bind_eq_ok_iff.mp rest
    cases ended
    cases plain <;> assumption
  · cases body

/-- What is read after an expression is plain only if the expression is. -/
theorem Suffixed.left {left result : Expr} {state final : State}
    (round : Suffixed inner least left state result final) (plain : result.Plain true) :
    left.Plain false := by
  cases round with
  | access _ _ ran => exact access_left ran plain
  | update _ _ _ => cases plain; assumption
  | conditional _ _ ran =>
    obtain ⟨_, _, _, _, _, _, _, _, _, _, _, rfl⟩ := conditional_eq_ok ran
    cases plain; assumption
  | operation _ _ ran =>
    obtain ⟨operation, _, _, _, _, _, _, _, rfl⟩ := operate_eq_ok ran
    cases operation <;> cases plain <;> assumption

/-- A token that continues an expression is not the end of the input. -/
theorem over_eq_cons (ends : stop.kind = .eof) {tokens : List Token}
    (continues : (State.over stop depth tokens).current.kind.suffix ≠ .none) :
    ∃ token rest, tokens = token :: rest := by
  cases tokens with
  | nil =>
    refine absurd ?_ continues
    change stop.kind.suffix = .none
    rw [ends]; rfl
  | cons token rest => exact ⟨token, rest, rfl⟩

/-- The operation after an expression that stands before it. -/
theorem Stands.operation (ends : stop.kind = .eof) (sound : InnerSound stop inner)
    {tokens : List Token} (within : ∀ token ∈ tokens, token.Inside) {left result : Expr}
    {state final : State} {powers : Nat × Nat}
    (before : Stands stop depth least tokens left state) (strong : least ≤ powers.1)
    (found : state.current.kind.suffix = .operation powers)
    (ran : operate inner powers left state = .ok result final) (plain : result.Plain true) :
    Stands stop depth least tokens result final ∧
      final.upcoming.length < state.upcoming.length := by
  obtain ⟨middle, taken, rfl, leftPlain, grouped, _, released⟩ := before
  obtain ⟨token, rest, rfl⟩ := over_eq_cons ends (by rw [found]; nofun)
  obtain ⟨operation, right, _, _, is, target, advanced, read, rfl⟩ := operate_eq_ok ran
  have is : token.kind.operation? = some operation := is
  obtain rfl : operation.powers = powers := by
    have := (Kind.suffix_of_operation is).symm.trans found
    exact Suffix.operation.inj this
  rw [advance_over] at advanced
  cases advanced
  have withinRest : ∀ token ∈ rest, token.Inside := fun other member =>
    within other (taken.suffix.subset (List.mem_cons_of_mem token member))
  have rightPlain : right.Plain true := by
    cases operation <;> cases plain <;> rename_i second <;> exact second.inBrackets
  obtain ⟨after, takenRight, rfl, rightPlain, rightGrouped, fits, weak⟩ :=
    sound.expr withinRest read rightPlain
  -- The loop came to this token, so the last operands of the left side have released it.
  have yielded : left.yields operation.powers.1 := by
    refine Expr.yields_of_releases (released _ ?_)
    unfold Token.power?
    rw [List.headD_cons, Kind.suffix_of_operation is]; rfl
  refine ⟨⟨after, Operation.takes_apply_iff.mpr ⟨token, rest, taken, is, takenRight⟩, rfl, ?_, ?_,
    ?_, ?_⟩, ?_⟩
  · cases operation with
    | assign => exact .assign leftPlain rightPlain
    | assignWith op => exact .assignWith leftPlain rightPlain
    | binary op => exact .binary leftPlain rightPlain
  · cases operation with
    | assign => exact ⟨(Bool.and_eq_true _ _).mpr ⟨target rfl, fits⟩, grouped, rightGrouped⟩
    | assignWith op => exact ⟨(Bool.and_eq_true _ _).mpr ⟨target rfl, fits⟩, grouped, rightGrouped⟩
    | binary op => exact ⟨(Bool.and_eq_true _ _).mpr ⟨yielded, fits⟩, grouped, rightGrouped⟩
  · simpa [Operation.fits_apply] using strong
  · intro power same
    simpa [Operation.releases_apply] using weak power same
  · have := takenRight.suffix.length_le
    simp only [over_upcoming_length, List.length_cons]
    omega

/-- The conditional after an expression that stands before it. -/
theorem Stands.conditional (ends : stop.kind = .eof) (sound : InnerSound stop inner)
    {tokens : List Token} (within : ∀ token ∈ tokens, token.Inside) {test result : Expr}
    {state final : State} (before : Stands stop depth least tokens test state)
    (strong : least ≤ conditionalPower) (found : state.current.kind.suffix = .conditional)
    (ran : Grammar.conditional inner test state = .ok result final)
    (plain : result.Plain true) :
    Stands stop depth least tokens result final ∧
      final.upcoming.length < state.upcoming.length := by
  obtain ⟨middle, taken, rfl, testPlain, grouped, _, released⟩ := before
  obtain ⟨token, rest, rfl⟩ := over_eq_cons ends (by rw [found]; nofun)
  have is : token.kind = .symbol .question := Kind.eq_of_suffix_conditional found
  obtain ⟨_, _, consequent, _, colon, _, alternate, advanced, readThen, colonFound, readElse,
    rfl⟩ := conditional_eq_ok ran
  rw [advance_over] at advanced
  cases advanced
  have withinRest : ∀ token ∈ rest, token.Inside := fun other member =>
    within other (taken.suffix.subset (List.mem_cons_of_mem token member))
  obtain ⟨_, branch, rfl⟩ := withAllowIn_over_eq_ok readThen
  cases plain with
  | conditional _ thenPlain elsePlain =>
    obtain ⟨_, takenThen, rfl, thenPlain, thenGrouped, _⟩ :=
      sound.expr withinRest branch thenPlain.inBrackets
    rw [over_with_allowIn] at colonFound
    obtain ⟨last, rfl, isColon, rfl⟩ := expect_over ends (by simp) colonFound
    have withinLast : ∀ token ∈ last, token.Inside := fun other member =>
      withinRest other (takenThen.suffix.subset (List.mem_cons_of_mem colon member))
    obtain ⟨after, takenElse, rfl, elsePlain, elseGrouped, fits, weak⟩ :=
      sound.expr withinLast readElse elsePlain.inBrackets
    have yielded : test.yields conditionalPower := by
      refine Expr.yields_of_releases (released _ ?_)
      unfold Token.power?
      rw [List.headD_cons, is]; rfl
    refine ⟨⟨after, ?_, rfl, .conditional testPlain thenPlain elsePlain,
      ⟨(Bool.and_eq_true _ _).mpr ⟨yielded, fits⟩, grouped, thenGrouped, elseGrouped⟩,
      decide_eq_true strong, ?_⟩, ?_⟩
    · rw [Expr.pieces]
      exact taken.append (.cons is (takenThen.append (.cons isColon takenElse)))
    · intro power same
      simpa [Expr.releases] using weak power same
    · have shorter := takenThen.suffix.length_le
      have := takenElse.suffix.length_le
      simp only [over_upcoming_length, List.length_cons] at shorter ⊢
      omega

/-- One round of the loop keeps what it stands for and takes at least a token. -/
theorem Stands.suffixed (ends : stop.kind = .eof) (sound : InnerSound stop inner)
    {tokens : List Token} (within : ∀ token ∈ tokens, token.Inside) {left result : Expr}
    {state final : State} (before : Stands stop depth least tokens left state)
    (round : Suffixed inner least left state result final) (plain : result.Plain true) :
    Stands stop depth least tokens result final ∧
      final.upcoming.length < state.upcoming.length := by
  cases round with
  | access _ found ran =>
    obtain ⟨middle, taken, rfl, _, grouped, _, released⟩ := before
    have yielded : left.yields accessPower := by
      refine Expr.yields_of_releases (released _ ?_)
      unfold Token.power?
      rw [over_current] at found
      rw [found]; rfl
    have inside : ∀ other ∈ middle, other.Inside := fun other member =>
      within other (taken.suffix.subset member)
    obtain ⟨kind, pieces, after, pieces_eq, takenRest, rfl, resultPlain, resultGrouped, fits,
      ends⟩ := access_over ends sound inside ran plain grouped yielded
    refine ⟨⟨after, pieces_eq ▸ taken.append takenRest, rfl, resultPlain, resultGrouped,
      fits least, fun power _ => ends power⟩, ?_⟩
    have := takenRest.length_lt
    simpa using this
  | @update op _ _ found target advanced =>
    obtain ⟨middle, taken, rfl, leftPlain, grouped, _, _⟩ := before
    obtain ⟨token, rest, rfl⟩ := over_eq_cons ends (by rw [found]; nofun)
    have is : token.kind = op.kind := Kind.eq_of_suffix_update found
    rw [advance_over] at advanced
    cases advanced
    refine ⟨⟨rest, ?_, rfl, .update leftPlain, ⟨target, grouped⟩, rfl, fun _ _ => rfl⟩, by simp⟩
    rw [Expr.pieces]
    exact taken.append (.fixed is)
  | conditional strong found ran =>
    exact before.conditional ends sound within strong found ran plain
  | operation strong found ran => exact before.operation ends sound within strong found ran plain

/-! ## Operands -/

/-- Reads an operand that stands by itself: it fits every place and releases everything. -/
theorem Stands.atom {tokens left : List Token} {expr : Expr}
    (taken : Takes expr.pieces tokens left) (plain : expr.Plain false) (grouped : expr.Grouped)
    (fits : ∀ least, expr.fits least) (releases : ∀ power, expr.releases power) :
    Stands stop depth least tokens expr (State.over stop depth left) :=
  ⟨left, taken, rfl, plain, grouped, fits least, fun power _ => releases power⟩

theorem literal_over {token : Token} {rest : List Token} {expr : Expr} {final : State}
    (inside : token.Inside)
    (ran : literal (State.over stop depth (token :: rest)) = .ok expr final) :
    Stands stop depth least (token :: rest) expr final := by
  obtain ⟨first, middle, advanced, body⟩ := bind_eq_ok_iff.mp ran
  rw [advance_over] at advanced
  cases advanced
  cases is : token.kind with
  | number =>
    simp only [is] at body
    obtain ⟨value, next, converted, ended⟩ := bind_eq_ok_iff.mp body
    cases reads : numberOf token with
    | error error => rw [reads] at converted; cases converted
    | ok number =>
      rw [reads] at converted
      cases converted
      cases ended
      exact .atom (.one ⟨is, reads⟩) (.number _) rfl (fun _ => rfl) (fun _ => rfl)
  | string =>
    simp only [is] at body
    cases body
    exact .atom (.one ⟨is, rfl⟩) (.string _) rfl (fun _ => rfl) (fun _ => rfl)
  | boolean =>
    simp only [is] at body
    cases body
    refine .atom (.one ⟨is, ?_⟩) (.boolean _) rfl (fun _ => rfl) (fun _ => rfl)
    rcases inside.truth is with text | text <;> simp [text]
  | null =>
    simp only [is] at body
    cases body
    exact .atom (.fixed is) .null rfl (fun _ => rfl) (fun _ => rfl)
  | _ => simp only [is] at body; cases body

theorem parenthesized_over (ends : stop.kind = .eof) (sound : InnerSound stop inner)
    {token : Token} {rest : List Token} {expr : Expr} {final : State}
    (within : ∀ token ∈ rest, token.Inside) (is : token.kind = .symbol .openParen)
    (ran : parenthesized inner (State.over stop depth (token :: rest)) = .ok expr final)
    (plain : expr.Plain true) : Stands stop depth least (token :: rest) expr final := by
  obtain ⟨first, middle, advanced, later⟩ := bind_eq_ok_iff.mp ran
  obtain ⟨body, next, inside, closing⟩ := bind_eq_ok_iff.mp later
  obtain ⟨close, last, closed, ended⟩ := bind_eq_ok_iff.mp closing
  cases ended
  rw [advance_over] at advanced
  cases advanced
  obtain ⟨after, read, rfl⟩ := withAllowIn_over_eq_ok inside
  cases plain with
  | parenthesized bodyPlain =>
    obtain ⟨left, taken, rfl, grouped⟩ := sequence_over ends sound within read bodyPlain
    rw [over_with_allowIn] at closed
    obtain ⟨left, rfl, isClose, rfl⟩ := expect_over ends (by simp) closed
    exact .atom (.cons is (taken.append (.fixed isClose))) (.parenthesized bodyPlain)
      ⟨rfl, grouped⟩ (fun _ => rfl) (fun _ => rfl)

theorem updateBefore_over (sound : InnerSound stop inner) {op : UpdateOp} {token : Token}
    {rest : List Token} {expr : Expr} {final : State}
    (within : ∀ token ∈ rest, token.Inside) (is : token.kind = op.kind)
    (ran : updateBefore inner op (State.over stop depth (token :: rest)) = .ok expr final)
    (plain : expr.Plain true) : Stands stop depth least (token :: rest) expr final := by
  obtain ⟨first, middle, advanced, later⟩ := bind_eq_ok_iff.mp ran
  obtain ⟨target, next, read, checking⟩ := bind_eq_ok_iff.mp later
  obtain ⟨_, last, checked, ended⟩ := bind_eq_ok_iff.mp checking
  obtain ⟨isTarget, rfl⟩ := checkTarget_eq_ok checked
  cases ended
  rw [advance_over] at advanced
  cases advanced
  cases plain with
  | update targetPlain =>
    obtain ⟨left, taken, rfl, targetPlain, grouped, fits, weak⟩ :=
      sound.expr within read targetPlain.inBrackets
    refine ⟨left, .cons is taken, rfl, .update targetPlain, ⟨isTarget, grouped⟩, rfl, ?_⟩
    intro power same
    simpa [Expr.releases] using weak power same

theorem unaryOperand_over (sound : InnerSound stop inner) {token : Token}
    {rest : List Token} {expr : Expr} {final : State} (within : ∀ token ∈ rest, token.Inside)
    (ran : unaryOperand inner token.kind (State.over stop depth (token :: rest)) =
      .ok expr final)
    (plain : expr.Plain true) : Stands stop depth least (token :: rest) expr final := by
  unfold unaryOperand at ran
  cases known : token.kind.unary? with
  | none => rw [known] at ran; cases ran
  | some op =>
    rw [known] at ran
    obtain ⟨first, middle, advanced, later⟩ := bind_eq_ok_iff.mp ran
    obtain ⟨operand, next, read, ended⟩ := bind_eq_ok_iff.mp later
    cases ended
    rw [advance_over] at advanced
    cases advanced
    cases plain with
    | unary operandPlain =>
      obtain ⟨left, taken, rfl, operandPlain, grouped, fits, weak⟩ :=
        sound.expr within read operandPlain.inBrackets
      refine ⟨left, .cons (Kind.unary?_eq_some_iff.mp known) taken, rfl, .unary operandPlain,
        ⟨fits, grouped⟩, rfl, ?_⟩
      intro power same
      simpa [Expr.releases] using weak power same

/-- Every operand that was read stands for the tokens that it took. -/
theorem operand_over (ends : stop.kind = .eof) (sound : InnerSound stop inner)
    {tokens : List Token} {expr : Expr} {final : State}
    (within : ∀ token ∈ tokens, token.Inside)
    (ran : operand inner (State.over stop depth tokens) = .ok expr final)
    (plain : expr.Plain true) : Stands stop depth least tokens expr final := by
  obtain ⟨token, middle, peeked, body⟩ := bind_eq_ok_iff.mp ran
  obtain ⟨same, rfl⟩ := peek_eq_ok_iff.mp peeked
  cases tokens with
  | nil =>
    obtain rfl : stop = token := same
    simp only [ends] at body
    cases body
  | cons first rest =>
    obtain rfl : first = token := same
    have withinRest : ∀ token ∈ rest, token.Inside :=
      fun other member => within other (List.mem_cons_of_mem first member)
    have inside := within first List.mem_cons_self
    cases is : first.kind with
    | number | string | boolean | null =>
      simp only [is] at body
      exact literal_over inside body
    | template =>
      simp only [is] at body
      obtain ⟨_, _, _, converted⟩ := bind_eq_ok_iff.mp body
      cases made : inner.template first with
      | error error => rw [made] at converted; cases converted
      | ok value =>
        rw [made] at converted
        cases converted
        exact absurd plain (sound.template made)
    | identifier =>
      simp only [is] at body
      obtain ⟨_, _, advanced, ended⟩ := bind_eq_ok_iff.mp body
      rw [advance_over] at advanced
      cases advanced
      cases ended
      exact .atom (.one ⟨is, rfl⟩) (.identifier _) rfl (fun _ => rfl) (fun _ => rfl)
    | keyword word =>
      cases word with
      | this =>
        simp only [is] at body
        obtain ⟨_, _, advanced, ended⟩ := bind_eq_ok_iff.mp body
        rw [advance_over] at advanced
        cases advanced
        cases ended
        exact .atom (.fixed is) .this rfl (fun _ => rfl) (fun _ => rfl)
      | function =>
        simp only [is] at body
        obtain ⟨_, _, _, ended⟩ := bind_eq_ok_iff.mp body
        cases ended
        cases plain
      | new =>
        simp only [is] at body
        exact absurd plain (sound.newExpr body)
      | _ =>
        simp only [is] at body
        exact unaryOperand_over sound withinRest (is ▸ body) plain
    | symbol mark =>
      cases mark with
      | openParen =>
        simp only [is] at body
        exact parenthesized_over ends sound withinRest is body plain
      | openBracket =>
        simp only [is] at body
        obtain ⟨_, _, _, rest⟩ := bind_eq_ok_iff.mp body
        obtain ⟨_, _, _, ended⟩ := bind_eq_ok_iff.mp rest
        cases ended
        cases plain
      | openBrace =>
        simp only [is] at body
        obtain ⟨_, _, _, rest⟩ := bind_eq_ok_iff.mp body
        obtain ⟨_, _, _, ended⟩ := bind_eq_ok_iff.mp rest
        cases ended
        cases plain
      | plusPlus =>
        simp only [is] at body
        have is : first.kind = UpdateOp.increment.kind := is
        exact updateBefore_over sound withinRest is body plain
      | minusMinus =>
        simp only [is] at body
        have is : first.kind = UpdateOp.decrement.kind := is
        exact updateBefore_over sound withinRest is body plain
      | slash | slashEquals => simp only [is] at body; cases body
      | _ =>
        simp only [is] at body
        exact unaryOperand_over sound withinRest (is ▸ body) plain
    | eof => exact absurd is inside.notEnd

/-! ## All levels -/

theorem exprBody_over (ends : stop.kind = .eof) (sound : InnerSound stop inner)
    {tokens : List Token} {expr : Expr} {final : State}
    (within : ∀ token ∈ tokens, token.Inside)
    (ran : exprBody inner least (State.over stop depth tokens) = .ok expr final)
    (plain : expr.Plain true) : Sound stop depth least tokens expr final := by
  obtain ⟨first, middle, operandRead, looped⟩ := bind_eq_ok_iff.mp ran
  refine loop_induction (·.Plain true) (Stands stop depth least tokens)
    (Sound stop depth least tokens) ?again ?done
    (fun plain => operand_over ends sound within operandRead plain) looped plain
  case again =>
    intro left next state after ran plain
    have round := suffix_eq_again ran
    exact ⟨(round.left plain).inBrackets,
      fun before => before.suffixed ends sound within round plain⟩
  case done =>
    intro left result state final ran plain
    obtain ⟨rfl, rfl, weak⟩ := suffix_eq_done ran
    refine ⟨plain, ?_⟩
    rintro ⟨rest, taken, rfl, leftPlain, grouped, fits, released⟩
    refine ⟨rest, taken, rfl, leftPlain, grouped, fits, fun power same => ⟨?_, released power same⟩⟩
    cases rest with
    | nil =>
      rw [List.headD_nil, Token.power?, ends] at same
      cases same
    | cons token rest =>
      exact weak (within token (taken.suffix.subset List.mem_cons_self)).sameLine rfl power same

theorem newBody_eq_ok {state final : State} {expr : Expr}
    (ran : newBody inner state = .ok expr final) :
    ∃ callee arguments, expr = .new callee arguments := by
  obtain ⟨_, _, _, afterNew⟩ := bind_eq_ok_iff.mp ran
  obtain ⟨_, _, _, afterKind⟩ := bind_eq_ok_iff.mp afterNew
  split at afterKind
  all_goals
    obtain ⟨_, _, _, afterFirst⟩ := bind_eq_ok_iff.mp afterKind
    obtain ⟨callee, _, _, afterLoop⟩ := bind_eq_ok_iff.mp afterFirst
    obtain ⟨arguments, _, _, ended⟩ := bind_eq_ok_iff.mp afterLoop
    cases ended
    exact ⟨callee, arguments, rfl⟩

/-- The parses of every level return what their tokens say. -/
theorem innerSound_levels (ends : stop.kind = .eof) {limit : Nat}
    {template : Token → Except Error Expr}
    (templates : ∀ ⦃token expr⦄, template token = .ok expr → ¬ expr.Plain true) (room : Nat) :
    InnerSound stop (levels limit template room) := by
  induction room with
  | zero =>
    refine ⟨?_, ?_, templates⟩
    · intro least depth tokens expr final _ ran _
      cases ran
    · intro state expr final ran _
      cases ran
  | succ room ih =>
    refine ⟨?_, ?_, templates⟩
    · intro least depth tokens expr final within ran plain
      obtain ⟨after, body, rfl⟩ := nested_over_eq_ok ran
      obtain ⟨left, taken, rfl, found⟩ := exprBody_over ends ih within body plain
      refine ⟨left, taken, ?_, found⟩
      rw [over_with_depth, over_depth, Nat.add_sub_cancel]
    · intro state expr final ran plain
      obtain ⟨after, body, _⟩ := nested_eq_ok ran
      obtain ⟨callee, arguments, rfl⟩ := newBody_eq_ok body
      cases plain

end Grammar
end Scriptlet
