import Scriptlet.Grammar.Nesting
import Scriptlet.Proofs.Grouping
import Scriptlet.Proofs.TokenRun

/-!
# Expressions are found by their tokens

The tokens of a plain expression that respects the binding powers are read as that
expression, unless the nesting is too deep. An expression is an operand with suffixes, so
the proof follows the left spine of the tree: `Arrives` says that the loop over suffixes
stands at an expression with the tokens after it still to come. What follows has to be
released by every operand that ends there.
-/

namespace Scriptlet

/-- The first token of a plain expression can begin one. -/
theorem Expr.Plain.begins {expr : Expr} {bracketed : Bool} (plain : expr.Plain bracketed)
    {tokens left : List Token} (taken : Takes expr.pieces tokens left) :
    ∃ token rest, tokens = token :: rest ∧ token.kind.beginsExpr := by
  induction plain generalizing tokens left with
  | number _ | string _ | boolean _ | identifier _ =>
    obtain ⟨token, rest, rfl, ⟨is, _⟩, _⟩ := taken
    exact ⟨token, rest, rfl, by rw [is]; rfl⟩
  | null | this =>
    obtain ⟨token, rest, rfl, is, _⟩ := taken
    have is : token.kind = _ := is
    exact ⟨token, rest, rfl, by rw [is]; rfl⟩
  | parenthesized _ _ =>
    obtain ⟨token, rest, rfl, is, _⟩ := taken
    have is : token.kind = _ := is
    exact ⟨token, rest, rfl, by rw [is]; rfl⟩
  | @sequence members two _ ih =>
    cases members with
    | nil => simp at two
    | cons first rest =>
      obtain ⟨_, taken, _⟩ := takes_append_iff.mp taken
      exact ih first (by simp) taken
  | @unary _ op _ _ _ =>
    obtain ⟨token, rest, rfl, is, _⟩ := taken
    have is : token.kind = _ := is
    exact ⟨token, rest, rfl, by rw [is]; cases op <;> rfl⟩
  | @update _ op side _ _ ih =>
    cases side with
    | before =>
      obtain ⟨token, rest, rfl, is, _⟩ := taken
      have is : token.kind = _ := is
      exact ⟨token, rest, rfl, by rw [is]; cases op <;> rfl⟩
    | after =>
      obtain ⟨_, taken, _⟩ := takes_append_iff.mp taken
      exact ih taken
  | binary _ _ ih _ | conditional _ _ _ ih _ _ | assign _ _ ih _ | assignWith _ _ ih _ =>
    obtain ⟨_, taken, _⟩ := takes_append_iff.mp taken
    exact ih taken
  | call _ _ ih _ | member _ ih | index _ _ ih _ | optionalMember _ ih
  | optionalIndex _ _ ih _ | optionalCall _ _ ih _ =>
    obtain ⟨_, taken, _⟩ := takes_append_iff.mp taken
    exact ih taken

/-- No argument begins with the parenthesis that closes the list. -/
theorem Expr.Plain.argument_ne_closeParen {argument : Argument} (stop : Token)
    (plain : argument.expr.Plain false) {tokens left : List Token}
    (taken : Takes argument.pieces tokens left) :
    (tokens.headD stop).kind ≠ .symbol .closeParen := by
  intro same
  obtain ⟨spread, expr⟩ := argument
  cases spread with
  | true =>
    obtain ⟨ellipsis, rest, rfl, is, _⟩ := taken
    have is : ellipsis.kind = .symbol .ellipsis := is
    rw [List.headD_cons, is] at same
    cases same
  | false =>
    obtain ⟨first, rest, rfl, begins⟩ := plain.begins taken
    rw [List.headD_cons] at same
    rw [same] at begins
    cases begins

namespace Grammar

variable {limit depth least : Nat} {stop : Token} {inner : Inner}
variable {template : Token → Except Error Expr}

/-! ## Suffixes -/

/-- What a token does after an operand is left alone if its power is too low. -/
theorem suffix_done {left : Expr} {state : State}
    (weak : ∀ power, state.current.power? = some power → power < least) :
    suffix inner least left state = .ok (.done left) state := by
  refine bind_eq_ok_iff.mpr ⟨state.current, state, rfl, ?_⟩
  unfold Token.power? at weak
  cases found : state.current.kind.suffix with
  | access =>
    have less : accessPower < least := weak _ (by rw [found]; rfl)
    simp only [if_pos less]
    rfl
  | update op =>
    have less : updatePower < least := weak _ (by rw [found]; rfl)
    simp only [less, decide_true, Bool.true_or, if_true]
    rfl
  | conditional =>
    have less : conditionalPower < least := weak _ (by rw [found]; rfl)
    simp only [if_pos less]
    rfl
  | operation powers =>
    have less : powers.1 < least := weak _ (by rw [found]; rfl)
    refine bind_eq_ok_iff.mpr ⟨state.allowIn, state, rfl, ?_⟩
    simp only [less, decide_true, Bool.or_true, if_true]
    rfl
  | none => rfl

theorem reaches_suffix_access {left result : Expr} {state final : State}
    (found : state.current.kind.suffix = .access) (strong : least ≤ accessPower)
    (ran : Reaches limit (access inner left) state result final) :
    Reaches limit (suffix inner least left) state (.again result) final := by
  refine .bind (.of_eq (show peek state = .ok state.current state from rfl)) ?_
  simp only [found, if_neg (Nat.not_lt.mpr strong)]
  exact ran.bind .pure

theorem reaches_suffix_conditional {left result : Expr} {state final : State}
    (found : state.current.kind.suffix = .conditional) (strong : least ≤ conditionalPower)
    (ran : Reaches limit (conditional inner left) state result final) :
    Reaches limit (suffix inner least left) state (.again result) final := by
  refine .bind (.of_eq (show peek state = .ok state.current state from rfl)) ?_
  simp only [found, if_neg (Nat.not_lt.mpr strong)]
  exact ran.bind .pure

theorem reaches_suffix_operation {left result : Expr} {powers : Nat × Nat}
    {state final : State} (found : state.current.kind.suffix = .operation powers)
    (allowed : state.allowIn = true) (strong : least ≤ powers.1)
    (ran : Reaches limit (operate inner powers left) state result final) :
    Reaches limit (suffix inner least left) state (.again result) final := by
  refine .bind (.of_eq (show peek state = .ok state.current state from rfl)) ?_
  simp only [found]
  refine .bind (.of_eq (show allowsIn state = .ok state.allowIn state from rfl)) ?_
  simp only [allowed, Bool.not_true, Bool.and_false, Bool.false_or, decide_eq_true_eq,
    if_neg (Nat.not_lt.mpr strong)]
  exact ran.bind .pure

theorem checkTarget_of_isTarget {expr : Expr} {state : State} (target : expr.isTarget) :
    checkTarget expr state = .ok () state := by
  rw [checkTarget, if_pos target]
  rfl

theorem reaches_suffix_update {left : Expr} {op : UpdateOp} {token : Token}
    {rest : List Token} (found : token.kind = op.kind) (sameLine : token.newlineBefore = false)
    (target : left.isTarget) (strong : least ≤ updatePower) :
    Reaches limit (suffix inner least left) (State.over stop depth (token :: rest))
      (.again (.update op .after left)) (State.over stop depth rest) := by
  have isUpdate : token.kind.suffix = .update op := by rw [found]; cases op <;> rfl
  refine .bind (.of_eq (show peek _ = .ok token _ from rfl)) ?_
  simp only [isUpdate, sameLine, Bool.or_false, decide_eq_true_eq,
    if_neg (Nat.not_lt.mpr strong)]
  exact .bind (.of_eq (checkTarget_of_isTarget target))
    (.bind (.of_eq (advance_over token rest)) .pure)

/-! ## The loop over suffixes -/

/-- A parse of an expression has come to stand at `expr` with the state `after`, or has
found the nesting too deep on its way. -/
def Arrives (limit : Nat) (inner : Inner) (least : Nat) (state : State) (expr : Expr)
    (after : State) : Prop :=
  (∃ final, exprBody inner least state = .error (.tooDeep limit) final) ∨
    ∃ first middle, operand inner state = .ok first middle ∧
      Relation.ReflTransGen (Round (suffix inner least)) (first, middle) (expr, after)

theorem Arrives.operand {expr : Expr} {state after : State}
    (found : Reaches limit (operand inner) state expr after) :
    Arrives limit inner least state expr after := by
  rcases found with found | ⟨final, failed⟩
  · exact .inr ⟨expr, after, found, .refl⟩
  · refine .inl ⟨final, ?_⟩
    change EStateM.bind (Grammar.operand inner) _ state = _
    simp only [EStateM.bind, failed]

/-- The result of a parse that has come to stand somewhere is the result of the loop from
there. -/
theorem exprBody_of_rounds {first expr : Expr} {state middle after : State}
    (found : Grammar.operand inner state = .ok first middle)
    (rounds : Relation.ReflTransGen (Round (Grammar.suffix inner least)) (first, middle)
      (expr, after)) :
    ∃ left : List (Except Error Token), after.upcoming.length ≤ left.length ∧
      exprBody inner least state = repeatOver (Grammar.suffix inner least) left expr after := by
  obtain ⟨left, enough, same⟩ := repeatOver_of_rounds rounds (Nat.le_refl _)
  refine ⟨left, enough, ?_⟩
  rw [← same]
  change EStateM.bind (Grammar.operand inner) _ state = _
  simp only [EStateM.bind, found]
  rfl

theorem Arrives.suffix {left expr : Expr} {state middle after : State}
    (before : Arrives limit inner least state left middle)
    (ran : Reaches limit (Grammar.suffix inner least left) middle (.again expr) after)
    (less : after.upcoming.length < middle.upcoming.length) :
    Arrives limit inner least state expr after := by
  rcases before with deep | ⟨first, start, found, rounds⟩
  · exact .inl deep
  · rcases ran with ran | ⟨final, failed⟩
    · exact .inr ⟨first, start, found, rounds.tail ⟨ran, less⟩⟩
    · obtain ⟨ahead, _, same⟩ := exprBody_of_rounds found rounds
      exact .inl ⟨final, same.trans (repeatOver_error failed)⟩

theorem Arrives.reaches {expr : Expr} {state after : State}
    (before : Arrives limit inner least state expr after)
    (weak : ∀ power, after.current.power? = some power → power < least) :
    Reaches limit (exprBody inner least) state expr after := by
  rcases before with deep | ⟨first, start, found, rounds⟩
  · exact .inr deep
  · obtain ⟨ahead, _, same⟩ := exprBody_of_rounds found rounds
    exact .inl (same.trans (repeatOver_done (suffix_done weak)))

/-! ## Expressions further in -/

/-- Whether the tokens of an expression are read as the expression, at every level of the
grammar, up to the suffixes that may follow it. -/
def Found (limit : Nat) (template : Token → Except Error Expr) (stop : Token) (expr : Expr) :
    Prop :=
  ∀ ⦃room depth least : Nat⦄ ⦃tokens left : List Token⦄,
    (∀ token ∈ tokens, token.newlineBefore = false) → Takes expr.pieces tokens left →
    expr.fits least → least ≤ operandPower →
    (∀ power, (left.headD stop).power? = some power → expr.releases power) →
    Arrives limit (levels limit template room) least (State.over stop depth tokens) expr
      (State.over stop depth left)

theorem Found.expr {expr : Expr} (found : Found limit template stop expr) {room : Nat}
    {tokens left : List Token} (sameLine : ∀ token ∈ tokens, token.newlineBefore = false)
    (taken : Takes expr.pieces tokens left) (fits : expr.fits least)
    (place : least ≤ operandPower)
    (weak : ∀ power, (left.headD stop).power? = some power →
      power < least ∧ expr.releases power) :
    Reaches limit ((levels limit template room).expr least) (State.over stop depth tokens) expr
      (State.over stop depth left) := by
  cases room with
  | zero => exact .inr ⟨_, rfl⟩
  | succ room =>
    refine .nested (Arrives.reaches
      (found sameLine taken fits place fun power is => (weak power is).2)
      fun power is => (weak power ?_).1)
    simpa using is

/-- An expression is found as an item of a list. -/
theorem Found.item {expr : Expr} (found : Found limit template stop expr) {room : Nat} :
    FindsItem limit depth stop (·.newlineBefore = false)
      ((levels limit template room).expr 0) Expr.pieces expr := by
  intro before after sameLine taken ended
  have no_power : (after.headD stop).power? = none := by
    unfold Token.power?; rw [ended]; rfl
  refine found.expr sameLine taken ?_ (Nat.zero_le _) ?_
  · cases expr <;> rfl
  · intro power is
    rw [no_power] at is
    cases is

/-- An argument is found as an item of a list. -/
theorem Found.argument {argument : Argument} (plain : argument.expr.Plain false)
    (found : Found limit template stop argument.expr) {room : Nat} :
    FindsItem limit depth stop (·.newlineBefore = false)
      (Grammar.argument (levels limit template room)) Argument.pieces argument := by
  intro before after sameLine taken ended
  obtain ⟨spread, expr⟩ := argument
  cases spread with
  | true =>
    obtain ⟨ellipsis, rest, rfl, is, taken⟩ := taken
    refine .bind (.of_eq (eat_of_eq is)) (.bind (found.item ?_ taken ended) .pure)
    exact fun token member => sameLine token (List.mem_cons_of_mem ellipsis member)
  | false =>
    obtain ⟨first, rest, rfl, begins⟩ := plain.begins taken
    have other : ((first :: rest).headD stop).kind ≠ .symbol .ellipsis := by
      intro same
      rw [List.headD_cons] at same
      rw [same] at begins
      cases begins
    exact .bind (.of_eq (eat_of_ne other)) (.bind (found.item sameLine taken ended) .pure)

/-- Whether the tokens of an expression are read as the expression between parentheses or
brackets, where it may be a sequence. -/
def FoundBracketed (limit : Nat) (template : Token → Except Error Expr) (stop : Token)
    (expr : Expr) : Prop :=
  ∀ ⦃room depth : Nat⦄ ⦃tokens left : List Token⦄,
    (∀ token ∈ tokens, token.newlineBefore = false) →
    (left.headD stop).kind.suffix = .none → (left.headD stop).kind ≠ .symbol .comma →
    Takes expr.pieces tokens left →
    Reaches limit (sequence (levels limit template room)) (State.over stop depth tokens) expr
      (State.over stop depth left)

theorem Found.bracketed {expr : Expr} (found : Found limit template stop expr) :
    FoundBracketed limit template stop expr := by
  intro room depth tokens left sameLine ended closed taken
  have items : Reaches limit (separated ((levels limit template room).expr 0))
      (State.over stop depth tokens) [expr] (State.over stop depth left) :=
    reaches_separated (by simp) (by simpa using found.item) ended closed sameLine taken
  exact .bind items .pure

theorem foundBracketed_sequence {members : List Expr} (two : 2 ≤ members.length)
    (found : ∀ member ∈ members, Found limit template stop member) :
    FoundBracketed limit template stop (.sequence members) := by
  intro room depth tokens left sameLine ended closed taken
  rw [Expr.pieces, sequencePieces_eq] at taken
  have items : Reaches limit (separated ((levels limit template room).expr 0))
      (State.over stop depth tokens) members (State.over stop depth left) := by
    refine reaches_separated ?_ (fun member isMember => (found member isMember).item) ended
      closed sameLine taken
    rintro rfl
    simp at two
  refine .bind items ?_
  rcases members with _ | ⟨first, _ | ⟨second, rest⟩⟩
  · simp at two
  · simp at two
  · exact .pure

theorem reaches_indexKey {key : Expr} (found : FoundBracketed limit template stop key)
    {room : Nat} {tokens left : List Token}
    (sameLine : ∀ token ∈ tokens, token.newlineBefore = false)
    (taken : Takes (.fixed (.symbol .openBracket) :: (key.pieces ++
      [.fixed (.symbol .closeBracket)])) tokens left) :
    Reaches limit (indexKey (levels limit template room)) (State.over stop depth tokens) key
      (State.over stop depth left) := by
  obtain ⟨bracket, rest, rfl, isBracket, taken⟩ := taken
  obtain ⟨_, keyTaken, ⟨close, left, rfl, isClose, rfl⟩⟩ := takes_append_iff.mp taken
  have isClose : close.kind = .symbol .closeBracket := isClose
  refine .bind (.of_eq (expect_of_eq isBracket))
    (.bind (.withAllowIn (found ?_ ?_ ?_ keyTaken)) (.bind (.of_eq (expect_of_eq isClose)) .pure))
  · exact fun token member => sameLine token (List.mem_cons_of_mem bracket member)
  · rw [List.headD_cons, isClose]; rfl
  · rw [List.headD_cons, isClose]; simp

theorem reaches_arguments {arguments : List Argument}
    (plain : ∀ argument ∈ arguments, argument.expr.Plain false)
    (found : ∀ argument ∈ arguments, Found limit template stop argument.expr)
    {room : Nat} {tokens left : List Token}
    (sameLine : ∀ token ∈ tokens, token.newlineBefore = false)
    (taken : Takes (.fixed (.symbol .openParen) :: (argumentPieces arguments ++
      [.fixed (.symbol .closeParen)])) tokens left) :
    Reaches limit (Grammar.arguments (levels limit template room))
      (State.over stop depth tokens) arguments (State.over stop depth left) := by
  obtain ⟨paren, rest, rfl, isParen, taken⟩ := taken
  have sameLine : ∀ token ∈ rest, token.newlineBefore = false :=
    fun token member => sameLine token (List.mem_cons_of_mem paren member)
  refine .bind (.of_eq (expect_of_eq isParen)) (.withAllowIn ?_)
  obtain ⟨_, items, ⟨close, left, rfl, isClose, rfl⟩⟩ := takes_append_iff.mp taken
  have isClose : close.kind = .symbol .closeParen := isClose
  cases arguments with
  | nil =>
    obtain rfl := items
    exact .bind (.of_eq (eat_of_eq isClose)) .pure
  | cons first more =>
    obtain ⟨_, firstTaken, _⟩ := takes_append_iff.mp items
    have notClose := (plain first (by simp)).argument_ne_closeParen stop firstTaken
    refine .bind (.of_eq (eat_of_ne notClose)) ?_
    have ended : ((close :: left).headD stop).kind.suffix = .none := by
      rw [List.headD_cons, isClose]; rfl
    have closed : ((close :: left).headD stop).kind ≠ .symbol .comma := by
      rw [List.headD_cons, isClose]; simp
    rw [argumentPieces_eq] at items
    have listed : Reaches limit (separated (Grammar.argument (levels limit template room)))
        (State.over stop depth rest) (first :: more) (State.over stop depth (close :: left)) :=
      reaches_separated (by simp)
        (fun argument member => (found argument member).argument (plain argument member))
        ended closed sameLine items
    exact .bind listed (.bind (.of_eq (expect_of_eq isClose)) .pure)

/-- The left operand of a suffix is found up to that suffix. -/
theorem Found.left {left : Expr} (found : Found limit template stop left)
    (grouped : left.Grouped) {power : Nat} (yielded : left.yields power) {token : Token}
    (is : token.power? = some power) (strong : least ≤ power) (place : least ≤ operandPower)
    {room : Nat} {tokens middle : List Token}
    (sameLine : ∀ token ∈ tokens, token.newlineBefore = false)
    (taken : Takes left.pieces tokens (token :: middle)) :
    Arrives limit (levels limit template room) least (State.over stop depth tokens) left
      (State.over stop depth (token :: middle)) := by
  refine found sameLine taken (Expr.fits_of_yields strong yielded) place ?_
  intro other same
  obtain rfl : power = other := by
    rw [List.headD_cons, is] at same
    exact Option.some.inj same
  exact Expr.releases_of_yields (Token.power?_ne is).2 left grouped yielded

/-! ## Suffixes of a found expression -/

theorem reaches_operate {operation : Operation} {left right : Expr} {token : Token}
    (found : Found limit template stop right) {room : Nat} {middle rest : List Token}
    (sameLine : ∀ token ∈ middle, token.newlineBefore = false)
    (is : token.kind.operation? = some operation)
    (target : operation.assigns → left.isTarget)
    (taken : Takes right.pieces middle rest) (fits : right.fits operation.powers.2)
    (place : operation.powers.2 ≤ operandPower)
    (weak : ∀ power, (rest.headD stop).power? = some power →
      power < operation.powers.2 ∧ right.releases power) :
    Reaches limit (operate (levels limit template room) operation.powers left)
      (State.over stop depth (token :: middle)) (operation.apply left right)
      (State.over stop depth rest) := by
  refine .bind (.of_eq (show peek _ = .ok token _ from rfl)) ?_
  have assigns := (Kind.powers?_of_operation is).2
  -- What follows the check of the target is the same for all operations.
  have final : Reaches limit (do
      let _ ← advance
      let right ← (levels limit template room).expr operation.powers.2
      return operation.apply left right)
      (State.over stop depth (token :: middle)) (operation.apply left right)
      (State.over stop depth rest) := by
    exact .bind (.of_eq (advance_over token middle))
      (.bind (found.expr sameLine taken fits place weak) .pure)
  by_cases changes : operation.assigns = true
  · simp only [is, assigns, changes, if_true]
    exact .bind (.of_eq (checkTarget_of_isTarget (target changes))) final
  · simp only [is, assigns, changes, if_false, Bool.false_eq_true]
    exact final

theorem Arrives.operation {operation : Operation} {left right : Expr} {token : Token}
    (found : Found limit template stop right) {room : Nat} {state : State}
    {middle rest : List Token}
    (before : Arrives limit (levels limit template room) least state left
      (State.over stop depth (token :: middle)))
    (sameLine : ∀ token ∈ middle, token.newlineBefore = false)
    (is : token.kind.operation? = some operation)
    (target : operation.assigns → left.isTarget) (strong : least ≤ operation.powers.1)
    (taken : Takes right.pieces middle rest) (fits : right.fits operation.powers.2)
    (place : operation.powers.2 ≤ operandPower)
    (weak : ∀ power, (rest.headD stop).power? = some power →
      power < operation.powers.2 ∧ right.releases power) :
    Arrives limit (levels limit template room) least state (operation.apply left right)
      (State.over stop depth rest) := by
  refine before.suffix (reaches_suffix_operation (Kind.suffix_of_operation is) rfl strong
    (reaches_operate found sameLine is target taken fits place weak)) ?_
  have := taken.suffix.length_le
  simp only [over_upcoming_length, List.length_cons]
  omega

theorem Arrives.conditional {test consequent alternate : Expr} {question colon : Token}
    (foundThen : Found limit template stop consequent)
    (foundElse : Found limit template stop alternate) {room : Nat} {state : State}
    {middle last rest : List Token}
    (before : Arrives limit (levels limit template room) least state test
      (State.over stop depth (question :: middle)))
    (sameLine : ∀ token ∈ middle, token.newlineBefore = false)
    (isQuestion : question.kind = .symbol .question) (isColon : colon.kind = .symbol .colon)
    (strong : least ≤ conditionalPower)
    (takenThen : Takes consequent.pieces middle (colon :: last))
    (takenElse : Takes alternate.pieces last rest) (fits : alternate.fits alternatePower)
    (weak : ∀ power, (rest.headD stop).power? = some power →
      power < alternatePower ∧ alternate.releases power) :
    Arrives limit (levels limit template room) least state
      (.conditional test consequent alternate) (State.over stop depth rest) := by
  have suffixes := takenThen.suffix
  have shorter := takenElse.suffix.length_le
  have ended : ((colon :: last).headD stop).kind.suffix = .none := by
    rw [List.headD_cons, isColon]; rfl
  -- Nothing follows the first branch but the colon, so it is found as an item of a list is.
  have branches : Reaches limit (Grammar.conditional (levels limit template room) test)
      (State.over stop depth (question :: middle)) (.conditional test consequent alternate)
      (State.over stop depth rest) := by
    refine .bind (.of_eq (advance_over question middle))
      (.bind (.withAllowIn (foundThen.item sameLine takenThen ended))
        (.bind (.of_eq (expect_of_eq isColon))
          (.bind (foundElse.expr ?_ takenElse fits (by decide) weak) .pure)))
    exact fun token member =>
      sameLine token (suffixes.subset (List.mem_cons_of_mem colon member))
  refine before.suffix (reaches_suffix_conditional ?_ strong branches) ?_
  · change question.kind.suffix = .conditional
    rw [isQuestion]; rfl
  · have := suffixes.length_le
    simp only [over_upcoming_length, List.length_cons] at this ⊢
    omega

/-- A call or an access that is read from the current token goes on with the loop. -/
theorem Arrives.access {owner result : Expr} {token : Token} {room : Nat} {state : State}
    {middle rest : List Token}
    (before : Arrives limit (levels limit template room) least state owner
      (State.over stop depth (token :: middle)))
    (is : token.kind.suffix = .access) (place : least ≤ operandPower) (after : rest <:+ middle)
    (ran : Reaches limit (Grammar.access (levels limit template room) owner)
      (State.over stop depth (token :: middle)) result (State.over stop depth rest)) :
    Arrives limit (levels limit template room) least state result
      (State.over stop depth rest) := by
  have strong : least ≤ accessPower := Nat.le_trans place (by decide)
  refine before.suffix (reaches_suffix_access is strong ran) ?_
  have := after.length_le
  simp only [over_upcoming_length, List.length_cons]
  omega

theorem reaches_memberName {name : String} {token : Token} {rest : List Token}
    (is : (Piece.word name).Fits token) :
    Reaches limit memberName (State.over stop depth (token :: rest)) name
      (State.over stop depth rest) := by
  obtain ⟨isWord, rfl⟩ := is
  refine .bind (.of_eq (show peekKind _ = .ok token.kind _ from rfl)) ?_
  simp only [isWord, if_true]
  exact .bind (.of_eq (advance_over token rest)) .pure

theorem reaches_optionalAccess {access : Access} {room : Nat} {tokens left : List Token}
    (sameLine : ∀ token ∈ tokens, token.newlineBefore = false)
    (keys : ∀ key, access = .index key → FoundBracketed limit template stop key)
    (calls : ∀ arguments, access = .call arguments → ∀ argument ∈ arguments,
      argument.expr.Plain false ∧ Found limit template stop argument.expr)
    (taken : Takes access.pieces tokens left) :
    Reaches limit (optionalAccess (levels limit template room)) (State.over stop depth tokens)
      access (State.over stop depth left) := by
  cases access with
  | member property =>
    obtain ⟨word, rest, rfl, is, rfl⟩ := taken
    refine .bind (.of_eq (show peekKind _ = .ok word.kind _ from rfl)) ?_
    have named : Reaches limit (do return Access.member (← memberName))
        (State.over stop depth (word :: rest)) (.member property) (State.over stop depth rest) :=
      .bind (reaches_memberName is) .pure
    obtain ⟨isWord, _⟩ := is
    -- A word is neither of the symbols that the other accesses begin with.
    split
    · next same => rw [same] at isWord; cases isWord
    · next same => rw [same] at isWord; cases isWord
    · exact named
  | index key =>
    obtain ⟨bracket, rest, rfl, is, _⟩ := id taken
    have is : bracket.kind = .symbol .openBracket := is
    refine .bind (.of_eq (show peekKind _ = .ok bracket.kind _ from rfl)) ?_
    simp only [is]
    exact .bind (reaches_indexKey (keys key rfl) sameLine taken) .pure
  | call arguments =>
    obtain ⟨paren, rest, rfl, is, _⟩ := id taken
    have is : paren.kind = .symbol .openParen := is
    refine .bind (.of_eq (show peekKind _ = .ok paren.kind _ from rfl)) ?_
    simp only [is]
    exact .bind (reaches_arguments (fun argument member => (calls _ rfl argument member).1)
      (fun argument member => (calls _ rfl argument member).2) sameLine taken) .pure

/-! ## Operands -/

theorem found_number (value : Float) : Found limit template stop (.number value) := by
  intro room depth least tokens left sameLine taken fits place weak
  obtain ⟨token, rest, rfl, ⟨is, reads⟩, rfl⟩ := taken
  refine .operand (.bind (.of_eq (show peek _ = .ok token _ from rfl)) ?_)
  simp only [is]
  refine .bind (.of_eq (advance_over token rest)) ?_
  simp only [is, reads]
  exact .bind .pure .pure

theorem found_string (text : String) : Found limit template stop (.string text) := by
  intro room depth least tokens left sameLine taken fits place weak
  obtain ⟨token, rest, rfl, ⟨is, rfl⟩, rfl⟩ := taken
  refine .operand (.bind (.of_eq (show peek _ = .ok token _ from rfl)) ?_)
  simp only [is]
  refine .bind (.of_eq (advance_over token rest)) ?_
  simp only [is]
  exact .pure

theorem found_boolean (value : Bool) : Found limit template stop (.boolean value) := by
  intro room depth least tokens left sameLine taken fits place weak
  obtain ⟨token, rest, rfl, ⟨is, text⟩, rfl⟩ := taken
  refine .operand (.bind (.of_eq (show peek _ = .ok token _ from rfl)) ?_)
  simp only [is]
  refine .bind (.of_eq (advance_over token rest)) ?_
  simp only [is, text]
  cases value <;> exact .pure

theorem found_null : Found limit template stop .null := by
  intro room depth least tokens left sameLine taken fits place weak
  obtain ⟨token, rest, rfl, is, rfl⟩ := taken
  have is : token.kind = .null := is
  refine .operand (.bind (.of_eq (show peek _ = .ok token _ from rfl)) ?_)
  simp only [is]
  refine .bind (.of_eq (advance_over token rest)) ?_
  simp only [is]
  exact .pure

theorem found_identifier (name : String) : Found limit template stop (.identifier name) := by
  intro room depth least tokens left sameLine taken fits place weak
  obtain ⟨token, rest, rfl, ⟨is, rfl⟩, rfl⟩ := taken
  refine .operand (.bind (.of_eq (show peek _ = .ok token _ from rfl)) ?_)
  simp only [is]
  exact .bind (.of_eq (advance_over token rest)) .pure

theorem found_this : Found limit template stop .this := by
  intro room depth least tokens left sameLine taken fits place weak
  obtain ⟨token, rest, rfl, is, rfl⟩ := taken
  have is : token.kind = .keyword .this := is
  refine .operand (.bind (.of_eq (show peek _ = .ok token _ from rfl)) ?_)
  simp only [is]
  exact .bind (.of_eq (advance_over token rest)) .pure

theorem found_parenthesized {inner : Expr} (found : FoundBracketed limit template stop inner) :
    Found limit template stop (.parenthesized inner) := by
  intro room depth least tokens left sameLine taken fits place weak
  obtain ⟨paren, rest, rfl, is, taken⟩ := taken
  have is : paren.kind = .symbol .openParen := is
  obtain ⟨_, innerTaken, ⟨close, left, rfl, isClose, rfl⟩⟩ := takes_append_iff.mp taken
  have isClose : close.kind = .symbol .closeParen := isClose
  refine .operand (.bind (.of_eq (show peek _ = .ok paren _ from rfl)) ?_)
  simp only [is]
  refine .bind (.of_eq (advance_over paren rest))
    (.bind (.withAllowIn (found ?_ ?_ ?_ innerTaken)) (.bind (.of_eq (expect_of_eq isClose)) .pure))
  · exact fun token member => sameLine token (List.mem_cons_of_mem paren member)
  · rw [List.headD_cons, isClose]; rfl
  · rw [List.headD_cons, isClose]; simp

theorem found_unary {op : UnaryOp} {operand : Expr} (found : Found limit template stop operand)
    (bound : operand.fits operandPower) : Found limit template stop (.unary op operand) := by
  intro room depth least tokens left sameLine taken fits place weak
  obtain ⟨token, rest, rfl, is, taken⟩ := taken
  have is : token.kind = op.kind := is
  have known := Kind.unary?_eq_some_iff.mpr is
  have weak : ∀ power, (left.headD stop).power? = some power →
      power < operandPower ∧ operand.releases power := by
    intro power same
    simpa [Expr.releases] using weak power same
  have sameLine : ∀ token ∈ rest, token.newlineBefore = false :=
    fun other member => sameLine other (List.mem_cons_of_mem token member)
  have read : Reaches limit (unaryOperand (levels limit template room) token.kind)
      (State.over stop depth (token :: rest)) (.unary op operand) (State.over stop depth left) := by
    unfold unaryOperand
    simp only [known]
    exact .bind (.of_eq (advance_over token rest))
      (.bind (found.expr sameLine taken bound (Nat.le_refl _) weak) .pure)
  refine .operand (.bind (.of_eq (show peek _ = .ok token _ from rfl)) ?_)
  rw [is] at read ⊢
  cases op <;> exact read

theorem found_updateBefore {op : UpdateOp} {target : Expr}
    (found : Found limit template stop target) (isTarget : target.isTarget) :
    Found limit template stop (.update op .before target) := by
  intro room depth least tokens left sameLine taken fits place weak
  obtain ⟨token, rest, rfl, is, taken⟩ := taken
  have is : token.kind = op.kind := is
  have weak : ∀ power, (left.headD stop).power? = some power →
      power < operandPower ∧ target.releases power := by
    intro power same
    simpa [Expr.releases] using weak power same
  have sameLine : ∀ token ∈ rest, token.newlineBefore = false :=
    fun other member => sameLine other (List.mem_cons_of_mem token member)
  have read : Reaches limit (updateBefore (levels limit template room) op)
      (State.over stop depth (token :: rest)) (.update op .before target)
      (State.over stop depth left) :=
    .bind (.of_eq (advance_over token rest))
      (.bind (found.expr sameLine taken (Expr.fits_of_isTarget isTarget) (Nat.le_refl _) weak)
        (.bind (.of_eq (checkTarget_of_isTarget isTarget)) .pure))
  refine .operand (.bind (.of_eq (show peek _ = .ok token _ from rfl)) ?_)
  rw [is]
  cases op <;> exact read

/-! ## Operations -/

/-- The powers of an operation after a token that stands for it. -/
theorem power?_of_operation {token : Token} {operation : Operation}
    (is : token.kind.operation? = some operation) : token.power? = some operation.powers.1 := by
  unfold Token.power?
  rw [Kind.suffix_of_operation is]
  rfl

theorem found_operation (operation : Operation) {left right : Expr}
    (foundLeft : Found limit template stop left) (foundRight : Found limit template stop right)
    (grouped : left.Grouped) (yielded : left.yields operation.powers.1)
    (target : operation.assigns → left.isTarget) (bound : right.fits operation.powers.2) :
    Found limit template stop (operation.apply left right) := by
  intro room depth least tokens rest sameLine taken fits place weak
  obtain ⟨token, middle, takenLeft, is, takenRight⟩ := Operation.takes_apply_iff.mp taken
  have strong : least ≤ operation.powers.1 := by
    simpa [Operation.fits_apply] using fits
  refine Arrives.operation foundRight
    (foundLeft.left grouped yielded (power?_of_operation is) strong place sameLine takenLeft)
    ?_ is target strong takenRight bound operation.right_le_operandPower ?_
  · exact fun other member =>
      sameLine other (takenLeft.suffix.subset (List.mem_cons_of_mem token member))
  · intro power same
    simpa [Operation.releases_apply] using weak power same

theorem found_conditional {test consequent alternate : Expr}
    (foundTest : Found limit template stop test)
    (foundThen : Found limit template stop consequent)
    (foundElse : Found limit template stop alternate)
    (grouped : test.Grouped) (yielded : test.yields conditionalPower)
    (bound : alternate.fits alternatePower) :
    Found limit template stop (.conditional test consequent alternate) := by
  intro room depth least tokens rest sameLine taken fits place weak
  obtain ⟨_, takenTest, ⟨question, middle, rfl, isQuestion, taken⟩⟩ := takes_append_iff.mp taken
  obtain ⟨_, takenThen, ⟨colon, last, rfl, isColon, takenElse⟩⟩ := takes_append_iff.mp taken
  have isQuestion : question.kind = .symbol .question := isQuestion
  have strong : least ≤ conditionalPower := of_decide_eq_true fits
  have power : question.power? = some conditionalPower := by
    unfold Token.power?; rw [isQuestion]; rfl
  refine Arrives.conditional foundThen foundElse
    (foundTest.left grouped yielded power strong place sameLine takenTest) ?_ isQuestion isColon
    strong takenThen takenElse bound ?_
  · exact fun other member =>
      sameLine other (takenTest.suffix.subset (List.mem_cons_of_mem question member))
  · intro power same
    simpa [Expr.releases] using weak power same

theorem found_updateAfter {op : UpdateOp} {target : Expr}
    (found : Found limit template stop target) (grouped : target.Grouped)
    (isTarget : target.isTarget) : Found limit template stop (.update op .after target) := by
  intro room depth least tokens rest sameLine taken fits place weak
  obtain ⟨_, targetTaken, ⟨token, rest, rfl, is, rfl⟩⟩ := takes_append_iff.mp taken
  have is : token.kind = op.kind := is
  have power : token.power? = some updatePower := by
    unfold Token.power?; rw [is]; cases op <;> rfl
  have yielded : target.yields updatePower :=
    Expr.yields_of_releases (Expr.releases_of_isTarget isTarget)
  have onLine : token.newlineBefore = false :=
    sameLine token (targetTaken.suffix.subset List.mem_cons_self)
  refine Arrives.suffix (found.left grouped yielded power place place sameLine targetTaken)
    (reaches_suffix_update is onLine isTarget place) ?_
  simp

/-! ## Calls and accesses -/

/-- A call or an access is found if it is read from its first token on. -/
theorem found_access {owner result : Expr} {kind : Kind} {rest : List Piece}
    (found : Found limit template stop owner) (grouped : owner.Grouped)
    (yielded : owner.yields accessPower) (isAccess : kind.suffix = .access)
    (pieces : result.pieces = owner.pieces ++ .fixed kind :: rest)
    (read : ∀ ⦃room depth : Nat⦄ ⦃token : Token⦄ ⦃middle left : List Token⦄,
      (∀ other ∈ token :: middle, other.newlineBefore = false) → token.kind = kind →
      Takes rest middle left →
      Reaches limit (access (levels limit template room) owner)
        (State.over stop depth (token :: middle)) result (State.over stop depth left)) :
    Found limit template stop result := by
  intro room depth least tokens left sameLine taken _ place _
  rw [pieces] at taken
  obtain ⟨_, takenOwner, ⟨token, middle, rfl, is, takenRest⟩⟩ := takes_append_iff.mp taken
  have is : token.kind = kind := is
  have isAccess : token.kind.suffix = .access := is ▸ isAccess
  have power : token.power? = some accessPower := by
    unfold Token.power?; rw [isAccess]; rfl
  have strong : least ≤ accessPower := Nat.le_trans place (by decide)
  have onLine : ∀ other ∈ token :: middle, other.newlineBefore = false :=
    fun other member => sameLine other (takenOwner.suffix.subset member)
  exact Arrives.access (found.left grouped yielded power strong place sameLine takenOwner)
    isAccess place takenRest.suffix (read onLine is takenRest)

theorem found_member {owner : Expr} {property : String}
    (found : Found limit template stop owner) (grouped : owner.Grouped)
    (yielded : owner.yields accessPower) :
    Found limit template stop (.member owner property) := by
  refine found_access found grouped yielded
    (show (Kind.symbol .dot).suffix = .access from rfl) (by rw [Expr.pieces]) ?_
  intro room depth token middle left _ is taken
  obtain ⟨word, rest, rfl, isWord, rfl⟩ := taken
  refine .bind (.of_eq (show peekKind _ = .ok token.kind _ from rfl)) ?_
  simp only [is]
  exact .bind (.of_eq (advance_over token _)) (.bind (reaches_memberName isWord) .pure)

theorem found_call {callee : Expr} {arguments : List Argument}
    (found : Found limit template stop callee) (grouped : callee.Grouped)
    (yielded : callee.yields accessPower)
    (plain : ∀ argument ∈ arguments, argument.expr.Plain false)
    (each : ∀ argument ∈ arguments, Found limit template stop argument.expr) :
    Found limit template stop (.call callee arguments) := by
  refine found_access found grouped yielded
    (show (Kind.symbol .openParen).suffix = .access from rfl) (by rw [Expr.pieces]) ?_
  intro room depth token middle left sameLine is taken
  refine .bind (.of_eq (show peekKind _ = .ok token.kind _ from rfl)) ?_
  simp only [is]
  exact .bind (reaches_arguments plain each sameLine (.cons is taken)) .pure

theorem found_index {owner key : Expr} (found : Found limit template stop owner)
    (grouped : owner.Grouped) (yielded : owner.yields accessPower)
    (keyFound : FoundBracketed limit template stop key) :
    Found limit template stop (.index owner key) := by
  refine found_access found grouped yielded
    (show (Kind.symbol .openBracket).suffix = .access from rfl) (by rw [Expr.pieces]) ?_
  intro room depth token middle left sameLine is taken
  refine .bind (.of_eq (show peekKind _ = .ok token.kind _ from rfl)) ?_
  simp only [is]
  exact .bind (reaches_indexKey keyFound sameLine (.cons is taken)) .pure

theorem found_optional {owner : Expr} {access : Access}
    (found : Found limit template stop owner) (grouped : owner.Grouped)
    (yielded : owner.yields accessPower)
    (keys : ∀ key, access = .index key → FoundBracketed limit template stop key)
    (calls : ∀ arguments, access = .call arguments → ∀ argument ∈ arguments,
      argument.expr.Plain false ∧ Found limit template stop argument.expr) :
    Found limit template stop (.optional owner access) := by
  refine found_access found grouped yielded
    (show (Kind.symbol .questionDot).suffix = .access from rfl) (by rw [Expr.pieces]) ?_
  intro room depth token middle left sameLine is taken
  have sameLine : ∀ other ∈ middle, other.newlineBefore = false :=
    fun other member => sameLine other (List.mem_cons_of_mem token member)
  refine .bind (.of_eq (show peekKind _ = .ok token.kind _ from rfl)) ?_
  simp only [is]
  exact .bind (.of_eq (advance_over token middle))
    (.bind (reaches_optionalAccess sameLine keys calls taken) .pure)

/-! ## All plain expressions -/

/-- Every plain expression that respects the binding powers is found by its tokens. -/
theorem found_of_plain {expr : Expr} {bracketed : Bool} (plain : expr.Plain bracketed)
    (grouped : expr.Grouped) :
    (bracketed = false → Found limit template stop expr) ∧
      FoundBracketed limit template stop expr := by
  -- What is found by itself is also found between brackets.
  have both : ∀ {expr : Expr} {bracketed : Bool}, Found limit template stop expr →
      (bracketed = false → Found limit template stop expr) ∧
        FoundBracketed limit template stop expr :=
    fun found => ⟨fun _ => found, found.bracketed⟩
  induction plain with
  | number value => exact both (found_number value)
  | string text => exact both (found_string text)
  | boolean value => exact both (found_boolean value)
  | null => exact both found_null
  | identifier name => exact both (found_identifier name)
  | this => exact both found_this
  | parenthesized _ ih => exact both (found_parenthesized (ih grouped.2).2)
  | sequence two _ ih =>
    have each := (everyExpr_iff _).mp grouped.2
    -- A sequence is plain between brackets only.
    exact ⟨nofun, foundBracketed_sequence two fun member isMember =>
      (ih member isMember (each member isMember)).1 rfl⟩
  | unary _ ih => exact both (found_unary ((ih grouped.2).1 rfl) grouped.1)
  | @update _ op side target _ ih =>
    have found := (ih grouped.2).1 rfl
    cases side with
    | before => exact both (found_updateBefore found grouped.1)
    | after => exact both (found_updateAfter found grouped.2 grouped.1)
  | @binary _ op left right _ _ ihLeft ihRight =>
    obtain ⟨yielded, bound⟩ := (Bool.and_eq_true _ _).mp grouped.1
    exact both (found_operation (.binary op) ((ihLeft grouped.2.1).1 rfl)
      ((ihRight grouped.2.2).1 rfl) grouped.2.1 yielded nofun bound)
  | conditional _ _ _ ihTest ihThen ihElse =>
    obtain ⟨yielded, bound⟩ := (Bool.and_eq_true _ _).mp grouped.1
    exact both (found_conditional ((ihTest grouped.2.1).1 rfl) ((ihThen grouped.2.2.1).1 rfl)
      ((ihElse grouped.2.2.2).1 rfl) grouped.2.1 yielded bound)
  | assign _ _ ihTarget ihValue =>
    obtain ⟨target, bound⟩ := (Bool.and_eq_true _ _).mp grouped.1
    exact both (found_operation .assign ((ihTarget grouped.2.1).1 rfl)
      ((ihValue grouped.2.2).1 rfl) grouped.2.1
      (Expr.yields_of_releases (Expr.releases_of_isTarget target)) (fun _ => target) bound)
  | @assignWith _ op _ _ _ _ ihTarget ihValue =>
    obtain ⟨target, bound⟩ := (Bool.and_eq_true _ _).mp grouped.1
    exact both (found_operation (.assignWith op) ((ihTarget grouped.2.1).1 rfl)
      ((ihValue grouped.2.2).1 rfl) grouped.2.1
      (Expr.yields_of_releases (Expr.releases_of_isTarget target)) (fun _ => target) bound)
  | call _ plain ih ihArguments =>
    have each := (everyArgument_iff _).mp grouped.2.2
    exact both (found_call ((ih grouped.2.1).1 rfl) grouped.2.1 grouped.1 plain
      fun argument member => (ihArguments argument member (each argument member)).1 rfl)
  | member _ ih => exact both (found_member ((ih grouped.2).1 rfl) grouped.2 grouped.1)
  | index _ _ ih ihKey =>
    exact both (found_index ((ih grouped.2.1).1 rfl) grouped.2.1 grouped.1 (ihKey grouped.2.2).2)
  | optionalMember _ ih =>
    exact both (found_optional ((ih grouped.2.1).1 rfl) grouped.2.1 grouped.1 nofun nofun)
  | optionalIndex _ _ ih ihKey =>
    refine both (found_optional ((ih grouped.2.1).1 rfl) grouped.2.1 grouped.1 ?_ nofun)
    rintro key ⟨⟩
    exact (ihKey grouped.2.2).2
  | optionalCall _ plain ih ihArguments =>
    have each := (everyArgument_iff _).mp grouped.2.2
    refine both (found_optional ((ih grouped.2.1).1 rfl) grouped.2.1 grouped.1 nofun ?_)
    rintro arguments ⟨⟩ argument member
    exact ⟨plain argument member, (ihArguments argument member (each argument member)).1 rfl⟩

end Grammar
end Scriptlet
