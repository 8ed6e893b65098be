import Scriptlet.Grammar.Operation
import Scriptlet.Proofs.Joining

/-!
# Expressions that end with a text

What the grammar reads as an expression up to the end of a text, it reads as well if a
semicolon stands there, and it stops before the semicolon. Each function of the grammar for
expressions has its lemma, from what the level further in reads.
-/

namespace Scriptlet
namespace Grammar

/-- A level that reads the same of both texts. -/
structure Joint.Inners (joint : Joint) (inner : Inner) : Prop where
  expr : ∀ least, joint.Takes joint.Near (inner.expr least)
  stmt : joint.Takes joint.Far inner.stmt
  newExpr : joint.Takes joint.Near inner.newExpr
  template : ∀ {a b : Token} {expr : Expr}, a.lexeme = b.lexeme → inner.template a = .ok expr →
    inner.template b = .ok expr

variable {joint : Joint} {inner : Inner}

/-! ## Lists and functions -/

theorem takes_sequence (inners : joint.Inners inner) :
    joint.Takes joint.Near (sequence inner) := by
  refine (takes_separated (inners.expr 0)).bind fun members => ?_
  split <;> exact carries_pure rfl

/-- Statements that are read one after another. -/
inductive Reads (inner : Inner) : State → List Stmt → State → Prop where
  | nil {state : State} : Reads inner state [] state
  | cons {state middle final : State} {stmt : Stmt} {stmts : List Stmt}
    (begins : state.current.kind.beginsStmt = true) (read : inner.stmt state = .ok stmt middle)
    (took : middle.upcoming.length < state.upcoming.length)
    (more : Reads inner middle stmts final) :
    Reads inner state (stmt :: stmts) final

theorem Reads.append {first second third : State} {stmts stmts' : List Stmt}
    (before : Reads inner first stmts second) (after : Reads inner second stmts' third) :
    Reads inner first (stmts ++ stmts') third := by
  induction before with
  | nil => exact after
  | cons begins read took _ ih => exact .cons begins read took (ih after)

/-- Statements that have been read are a list, if no other begins after them. -/
theorem Reads.stmtList {state final : State} {stmts : List Stmt}
    (reads : Reads inner state stmts final) (ends : final.current.kind.beginsStmt = false) :
    stmtList inner state = .ok stmts final := by
  suffices main : ∀ (ahead : List (Except Error Token)) (earlier : List Stmt),
      state.upcoming.length ≤ ahead.length →
      repeatOver (stmtStep inner) ahead earlier state = .ok (stmts.reverse ++ earlier) final by
    refine bind_eq_ok_iff.mpr ⟨stmts.reverse ++ [], final, main _ [] (Nat.le_refl _), ?_⟩
    simp [pure_eq_ok_iff]
  induction reads with
  | nil =>
    intro ahead earlier _
    refine repeatOver_done ?_
    refine bind_eq_ok_iff.mpr ⟨_, _, rfl, ?_⟩
    rw [if_neg (by simpa using ends)]
    rfl
  | @cons state middle final stmt stmts begins read took _ ih =>
    intro ahead earlier enough
    cases ahead with
    | nil =>
      simp only [List.length_nil] at enough
      omega
    | cons piece ahead =>
      have round : stmtStep inner earlier state = .ok (.again (stmt :: earlier)) middle := by
        refine bind_eq_ok_iff.mpr ⟨_, _, rfl, ?_⟩
        rw [if_pos begins]
        exact bind_eq_ok_iff.mpr ⟨_, _, read, rfl⟩
      simp only [List.length_cons] at enough
      rw [repeatOver_again round, ih ends ahead (stmt :: earlier) (by omega)]
      simp

section Lists

variable {starts : Ahead → Ahead → Prop}

/-- A round of a list of statements reads one, or ends the list. -/
theorem stmtStep_carries (inners : joint.Inners inner) (any : ∀ s t, starts s t → joint.Any s t)
    (far : ∀ s t, joint.Far s t → starts s t) {s t after : State} {earlier : List Stmt}
    {found : Step (List Stmt)} (stands : starts s.ahead t.ahead) (level : Level s t)
    (ran : stmtStep inner earlier s = .ok found after) :
    (found = .done earlier ∧ after = s ∧ s.current.kind.beginsStmt = false) ∨
    ∃ stmt t', found = .again (stmt :: earlier) ∧ t.current.kind.beginsStmt = true ∧
      inner.stmt t = .ok stmt t' ∧ starts after.ahead t'.ahead ∧ Level after t' ∧
      Took true s after ∧ Took true t t' := by
  change (if s.current.kind.beginsStmt = true then _ else _ : Parse _) s = _ at ran
  split at ran
  · next begins =>
    obtain ⟨stmt, middle, read, ended⟩ := bind_eq_ok_iff.mp ran
    obtain ⟨rfl, rfl⟩ := pure_eq_ok_iff.mp ended
    -- at the end no statement is read, so the token is the same in both texts
    have same : s.current.kind = t.current.kind := by
      rcases any _ _ stands with first | ended
      · exact first.kind
      · exact absurd read (inners.stmt.starved ended)
    obtain ⟨t', read', stands', rest⟩ := inners.stmt (any _ _ stands) level read
    exact .inr ⟨stmt, t', rfl, same ▸ begins, read', far _ _ stands', rest⟩
  · next ends =>
    obtain ⟨rfl, rfl⟩ := pure_eq_ok_iff.mp ran
    exact .inl ⟨rfl, rfl, by simpa using ends⟩

/-- Statements that the first parse reads, the second reads as well. -/
theorem reads_of_stmtList (inners : joint.Inners inner) (any : ∀ s t, starts s t → joint.Any s t)
    (far : ∀ s t, joint.Far s t → starts s t) {s t s' : State} {stmts : List Stmt}
    (stands : starts s.ahead t.ahead) (level : Level s t)
    (ran : stmtList inner s = .ok stmts s') :
    ∃ t', Reads inner t stmts t' ∧ s'.current.kind.beginsStmt = false ∧
      starts s'.ahead t'.ahead ∧ Level s' t' ∧ Took false s s' ∧ Took false t t' := by
  suffices main : ∀ (ahead : List (Except Error Token)) (earlier found : List Stmt) ⦃s t : State⦄,
      s.upcoming.length ≤ ahead.length → starts s.ahead t.ahead → Level s t →
      repeatOver (stmtStep inner) ahead earlier s = .ok found s' →
      ∃ stmts t', found = stmts.reverse ++ earlier ∧ Reads inner t stmts t' ∧
        s'.current.kind.beginsStmt = false ∧ starts s'.ahead t'.ahead ∧ Level s' t' ∧
        Took false s s' ∧ Took false t t' by
    obtain ⟨found, after, looped, ended⟩ := bind_eq_ok_iff.mp ran
    obtain ⟨rfl, rfl⟩ := pure_eq_ok_iff.mp ended
    obtain ⟨stmts, t', rfl, rest⟩ := main s.upcoming [] found (Nat.le_refl _) stands level looped
    exact ⟨t', by simpa using rest⟩
  intro ahead
  induction ahead with
  | nil =>
    intro earlier found s t short stands level ran
    obtain ⟨step, after, ran, ended⟩ := bind_eq_ok_iff.mp ran
    cases ended
    rcases stmtStep_carries inners any far stands level ran with
      ⟨rfl, rfl, ends⟩ | ⟨_, _, _, _, _, _, _, left, _⟩
    · exact ⟨[], t, rfl, .nil, ends, stands, level, .none s', .none t⟩
    · have less := left.length_lt
      simp only [List.length_nil] at short
      omega
  | cons piece ahead ih =>
    intro earlier found s t short stands level ran
    obtain ⟨step, after, ran, ended⟩ := bind_eq_ok_iff.mp ran
    rcases stmtStep_carries inners any far stands level ran with
      ⟨rfl, rfl, ends⟩ | ⟨stmt, t₁, rfl, begins, read, stands, level, left, right⟩
    · obtain ⟨rfl, rfl⟩ := pure_eq_ok_iff.mp ended
      exact ⟨[], t, rfl, .nil, ends, stands, level, .none after, .none t⟩
    · have less := left.length_lt
      simp only [List.length_cons] at short
      obtain ⟨stmts, t', rfl, more, ends, stands, level, left', right'⟩ :=
        ih (stmt :: earlier) found (by omega) stands level ended
      exact ⟨stmt :: stmts, t', by simp, .cons begins read right.length_lt more, ends, stands,
        level, (left.trans left').always, (right.trans right').always⟩

end Lists

/-- A list of statements. Where the first parse comes to the end, the second may read on. -/
theorem strays_stmtList (inners : joint.Inners inner) :
    Strays (fun _ => True) joint.Near joint.Inside (fun _ => false) (stmtList inner)
      (stmtList inner) := by
  intro s t stmts s' stands level ran
  obtain ⟨t', reads, ends, far, level, left, right⟩ :=
    reads_of_stmtList inners (fun _ _ => Joint.Far.any) (fun _ _ => id) stands.far level ran
  refine ⟨left, ?_⟩
  rcases far with (inside | edge) | past
  · have same : s'.current.kind = t'.current.kind := inside.kind
    exact .inr ⟨t', reads.stmtList (same ▸ ends), inside, level, right⟩
  · exact .inl ⟨trivial, edge.ended⟩
  · exact .inl ⟨trivial, past.ended⟩

theorem takes_block (inners : joint.Inners inner) : joint.Takes joint.Near (block inner) := by
  have closes (body : List Stmt) : joint.Takes joint.Near
      (expect (.symbol .closeBrace) >>= fun _ => pure body) := takes_close .closeBrace body
  refine takes_expect nofun fun _ _ _ => ?_
  exact (strays_withAllowIn true (strays_stmtList inners)).bind (fun body => (closes body).starved)
    fun body => (closes body).first.inside

theorem takes_params : joint.Takes joint.Near params := by
  refine takes_expect nofun fun _ _ _ => carries_eat nofun nofun (carries_pure rfl) ?_
  exact (takes_separated takes_expectIdentifier).near.bind fun names =>
    (takes_close .closeParen names).near

theorem takes_functionRest (inners : joint.Inners inner) (name : Option String)
    (isGenerator : Bool) : joint.Takes joint.Near (functionRest inner name isGenerator) :=
  takes_params.bind fun _ => (takes_block inners).near.bind fun _ => carries_pure rfl

theorem goes_functionName (needsName : Bool) :
    Goes joint.Near joint.Near (functionName needsName) := by
  have each (kind : Kind) : Goes joint.Near joint.Near
      (if kind = .identifier || needsName then do return some (← expectIdentifier)
      else return none) := by
    split
    · exact takes_expectIdentifier.near.bind fun _ => carries_pure rfl
    · exact carries_pure rfl
  exact carries_peekKind_near (fun kind _ => (each kind).nearInside) rfl (each .eof).nearEdge

theorem takes_function (inners : joint.Inners inner) (needsName : Bool) :
    joint.Takes joint.Near (function inner needsName) := by
  have rest (isGenerator : Bool) : Goes joint.Near joint.Near
      (functionName needsName >>= fun name => functionRest inner name isGenerator) :=
    (goes_functionName needsName).bind fun name =>
      (takes_functionRest inners name isGenerator).near
  exact takes_expect nofun fun _ _ _ => carries_eat nofun nofun (rest true) (rest false)

/-! ## Calls and accesses -/

theorem takes_argument (inners : joint.Inners inner) :
    joint.Takes joint.Near (argument inner) := by
  have rest (spread : Bool) : joint.Takes joint.Near
      (inner.expr 0 >>= fun expr => pure (⟨spread, expr⟩ : Argument)) :=
    (inners.expr 0).bind fun _ => carries_pure rfl
  exact takes_eat nofun (rest true).near (rest false)

theorem takes_arguments (inners : joint.Inners inner) :
    joint.Takes joint.Near (arguments inner) := by
  refine takes_expect nofun fun _ _ _ => carries_withAllowIn true ?_
  refine carries_eat nofun nofun (carries_pure rfl) ?_
  exact (takes_separated (takes_argument inners)).near.bind fun items =>
    (takes_close .closeParen items).near

theorem takes_indexKey (inners : joint.Inners inner) :
    joint.Takes joint.Near (indexKey inner) := by
  refine takes_expect nofun fun _ _ _ => ?_
  exact (carries_withAllowIn true (takes_sequence inners).near).bind fun key =>
    (takes_close .closeBracket key).near

theorem takes_memberName : joint.Takes joint.Near memberName := by
  refine takes_peekKind (fun kind _ => ?_) starved_unexpected
  split
  · refine carries_advance fun a b _ lexeme => ?_
    rw [lexeme]
    exact carries_pure rfl
  · exact carries_unexpected

theorem takes_optionalAccess (inners : joint.Inners inner) :
    joint.Takes joint.Near (optionalAccess inner) := by
  have named : joint.Takes joint.Near (do return Access.member (← memberName)) :=
    takes_memberName.bind fun _ => carries_pure rfl
  refine takes_peekKind (fun kind _ => ?_) named.starved
  split
  · exact (takes_arguments inners).first.bind fun _ => carries_pure rfl
  · exact (takes_indexKey inners).first.bind fun _ => carries_pure rfl
  · exact named.first

theorem takes_access (inners : joint.Inners inner) (object : Expr) :
    joint.Takes joint.Near (access inner object) := by
  refine takes_peekKind (fun kind _ => ?_) starved_unexpected
  split
  · exact (takes_arguments inners).first.bind fun _ => carries_pure rfl
  · exact carries_advance fun _ _ _ _ => takes_memberName.near.bind fun _ => carries_pure rfl
  · exact (takes_indexKey inners).first.bind fun _ => carries_pure rfl
  · exact carries_advance fun _ _ _ _ =>
      (takes_optionalAccess inners).near.bind fun _ => carries_pure rfl
  · exact carries_unexpected

/-! ## Operands -/

theorem goes_checkTarget {starts : Ahead → Ahead → Prop} (expr : Expr) :
    Goes starts starts (checkTarget expr) := by
  unfold checkTarget
  split
  · exact carries_pure rfl
  · exact carries_unexpected

theorem numberOf_eq_ok {a b : Token} {number : Float} (lexeme : a.lexeme = b.lexeme)
    (read : numberOf a = .ok number) : numberOf b = .ok number := by
  unfold numberOf at read ⊢
  rw [← lexeme]
  cases found : Number.Decimal.read? a.lexeme.toList with
  | none => simp [found] at read
  | some decimal => simpa [found] using read

theorem goes_element (inners : joint.Inners inner) :
    Goes joint.Near joint.Near (element inner) := by
  have rest : joint.Takes joint.Near (eat (.symbol .ellipsis) >>= fun spread =>
      if spread then inner.expr 0 >>= fun expr => pure (Element.spread expr)
      else inner.expr 0 >>= fun expr => pure (Element.item expr)) := by
    refine takes_eat nofun ?_ ?_
    · exact (inners.expr 0).near.bind fun _ => carries_pure rfl
    · exact (inners.expr 0).bind fun _ => carries_pure rfl
  refine Carries.near (carries_peekKind (fun _ _ => Joint.Inside.toFirst) fun kind _ => ?_)
    (starved_peekKind rest.starved).edge
  split
  · exact carries_stop rfl fun _ _ => Joint.Inside.near
  · exact rest.first.inside

theorem takes_arrayLiteral (inners : joint.Inners inner) :
    joint.Takes joint.Near (arrayLiteral inner) := by
  refine takes_expect nofun fun _ _ _ => ?_
  exact (carries_withAllowIn true (goes_closedList .closeBracket nofun (goes_element inners))).bind
    fun _ => carries_pure rfl

theorem takes_propertyName (inners : joint.Inners inner) :
    joint.Takes joint.Near (propertyName inner) := by
  refine Carries.takes (carries_peek fun a b kind lexeme => ?_) ?_
  · rw [← kind, ← lexeme]
    split
    · exact carries_advance fun _ _ _ _ => carries_pure rfl
    · refine carries_advance fun _ _ _ _ => ?_
      exact (carries_ofExcept fun _ => numberOf_eq_ok lexeme).bind fun _ => carries_pure rfl
    · refine carries_advance fun _ _ _ _ => (inners.expr 0).near.bind fun expr => ?_
      exact (takes_close .closeBracket (PropertyName.computed expr)).near
    · split
      · exact carries_advance fun _ _ _ _ => carries_pure rfl
      · exact carries_unexpected
  · refine starved_peek fun token isEnd => ?_
    rw [isEnd]
    exact starved_unexpected

theorem goes_propertyRest (inners : joint.Inners inner) (shorthand : Option String)
    (name : PropertyName) : Goes joint.Near joint.Near (propertyRest inner shorthand name) := by
  refine Carries.near (carries_peekKind (fun _ _ => Joint.Inside.toFirst) fun kind _ => ?_) ?_
  · split
    · exact Carries.inside (carries_advance fun _ _ _ _ =>
        (inners.expr 0).near.bind fun _ => carries_pure rfl)
    · exact (takes_functionRest inners _ false).first.inside.bind fun _ => carries_pure rfl
    · exact carries_stop rfl fun _ _ => Joint.Inside.near
    · exact carries_stop rfl fun _ _ => Joint.Inside.near
    · exact carries_unexpected
  · exact (starved_peekKind starved_unexpected).edge

theorem takes_property (inners : joint.Inners inner) :
    joint.Takes joint.Near (property inner) := by
  refine takes_eat nofun ?_ ?_
  · exact (inners.expr 0).near.bind fun _ => carries_pure rfl
  · refine Carries.takes (carries_peek fun a b kind lexeme => ?_) ?_
    · rw [← kind, ← lexeme]
      exact (takes_propertyName inners).first.bind fun name => goes_propertyRest inners _ name
    · exact starved_peek fun _ _ => (takes_propertyName inners).starved.bind

theorem takes_objectLiteral (inners : joint.Inners inner) :
    joint.Takes joint.Near (objectLiteral inner) := by
  refine takes_expect nofun fun _ _ _ => ?_
  exact (carries_withAllowIn true
    (goes_closedList .closeBrace nofun (takes_property inners).near)).bind fun _ => carries_pure rfl

theorem carries_updateBefore {took : Expr → Bool} (inners : joint.Inners inner) (op : UpdateOp) :
    Carries joint.First joint.Near took (updateBefore inner op) (updateBefore inner op) := by
  refine carries_advance fun _ _ _ _ => (inners.expr operandPower).near.bind fun target => ?_
  exact (goes_checkTarget target).bind fun _ => carries_pure rfl

theorem carries_unaryOperand {took : Expr → Bool} (inners : joint.Inners inner) (kind : Kind) :
    Carries joint.First joint.Near took (unaryOperand inner kind) (unaryOperand inner kind) := by
  unfold unaryOperand
  split
  · exact carries_advance fun _ _ _ _ =>
      (inners.expr operandPower).near.bind fun _ => carries_pure rfl
  · exact carries_unexpected

theorem carries_parenthesized {took : Expr → Bool} (inners : joint.Inners inner) :
    Carries joint.First joint.Near took (parenthesized inner) (parenthesized inner) := by
  refine carries_advance fun _ _ _ _ => ?_
  refine (carries_withAllowIn true (takes_sequence inners).near).bind fun expr => ?_
  exact (takes_close .closeParen expr.parenthesized).near

theorem carries_literal {took : Expr → Bool} :
    Carries joint.First joint.Near took literal literal := by
  refine carries_advance fun a b kind lexeme => ?_
  rw [← kind, ← lexeme]
  split
  · exact (carries_ofExcept fun _ => numberOf_eq_ok lexeme).bind fun _ => carries_pure rfl
  · exact carries_pure rfl
  · exact carries_pure rfl
  · exact carries_pure rfl
  · exact carries_throw

theorem takes_operand (inners : joint.Inners inner) : joint.Takes joint.Near (operand inner) := by
  refine Carries.takes (carries_peek fun a b kind lexeme => ?_) ?_
  · rw [← kind, ← lexeme]
    split
    · exact carries_literal
    · exact carries_literal
    · exact carries_literal
    · exact carries_literal
    · exact carries_advance fun _ _ _ _ => carries_ofExcept fun _ => inners.template lexeme
    · exact carries_advance fun _ _ _ _ => carries_pure rfl
    · exact carries_advance fun _ _ _ _ => carries_pure rfl
    · exact carries_parenthesized inners
    · exact (takes_arrayLiteral inners).first
    · exact (takes_objectLiteral inners).first
    · exact (takes_function inners false).first.bind fun _ => carries_pure rfl
    · exact inners.newExpr.first
    · exact carries_updateBefore inners .increment
    · exact carries_updateBefore inners .decrement
    · exact carries_throw
    · exact carries_throw
    · exact carries_unaryOperand inners a.kind
  · refine starved_peek fun token isEnd => ?_
    rw [isEnd]
    exact starved_unexpected

/-! ## New -/

theorem carries_newAccess (inners : joint.Inners inner) (callee : Expr) :
    Carries joint.Near joint.Near Step.goesOn (newAccess inner callee)
      (newAccess inner callee) := by
  have accesses : Carries joint.First joint.Near (fun _ => true)
      (do return Step.again (← access inner callee))
      (do return Step.again (← access inner callee)) :=
    (takes_access inners callee).first.bind fun _ => carries_pure rfl
  refine carries_peekKind_near (fun kind _ => ?_) rfl (carries_stop rfl fun _ _ => .inr)
  split
  · exact accesses.inside.always
  · exact accesses.inside.always
  · exact carries_stop rfl fun _ _ => .inl

theorem goes_newArguments (inners : joint.Inners inner) :
    Goes joint.Near joint.Near (newArguments inner) := by
  refine carries_peekKind_near (fun kind _ => ?_) rfl (carries_stop rfl fun _ _ => .inr)
  split
  · exact ((takes_arguments inners).first.bind fun _ => carries_pure rfl).inside
  · exact carries_stop rfl fun _ _ => .inl

theorem takes_newBody (inners : joint.Inners inner) : joint.Takes joint.Near (newBody inner) := by
  have rest (first : Expr) : Goes joint.Near joint.Near
      (do
        let callee ← loop (newAccess inner) first
        return Expr.new callee (← newArguments inner)) := by
    have accesses : Goes joint.Near joint.Near (loop (newAccess inner) first) :=
      carries_loop (fun _ _ => id) (carries_newAccess inners) first
    exact accesses.bind fun callee => (goes_newArguments inners).bind fun _ => carries_pure rfl
  refine takes_expect nofun fun _ _ _ => ?_
  refine Carries.near (carries_peekKind (fun _ _ => Joint.Inside.toFirst) fun kind _ => ?_) ?_
  · dsimp only
    split
    · exact inners.newExpr.first.inside.bind rest
    · exact (takes_operand inners).first.inside.bind rest
  · exact (starved_peekKind (takes_operand inners).starved.bind).edge

/-! ## Operations -/

theorem carries_conditional {took : Expr → Bool} (inners : joint.Inners inner) (test : Expr) :
    Carries joint.First joint.Near took (conditional inner test) (conditional inner test) := by
  refine carries_advance fun _ _ _ _ => ?_
  refine (carries_withAllowIn true (inners.expr 0).near).bind fun consequent => ?_
  exact Joint.Takes.near (takes_expect nofun fun _ _ _ =>
    (inners.expr alternatePower).near.bind fun _ => carries_pure rfl)

theorem carries_operate (inners : joint.Inners inner) (powers : Nat × Nat) (left : Expr) :
    Carries joint.First joint.Near (fun _ => true) (operate inner powers left)
      (operate inner powers left) := by
  have rest {f g : Expr → Parse Expr}
      (ends : ∀ right, Carries joint.Near joint.Near (fun _ => false) (f right) (g right)) :
      Carries joint.First joint.Near (fun _ => true)
        (advance >>= fun _ => inner.expr powers.2 >>= f)
        (advance >>= fun _ => inner.expr powers.2 >>= g) :=
    carries_advance fun _ _ _ _ => (inners.expr powers.2).near.bind ends
  refine carries_peek fun a b kind _ => ?_
  rw [← kind]
  dsimp only
  split
  · refine (goes_checkTarget left).bindTaking fun _ => rest fun right => ?_
    split
    · exact carries_pure rfl
    · exact carries_throw
  · refine rest fun right => ?_
    split
    · exact carries_pure rfl
    · exact carries_throw

theorem carries_suffix (inners : joint.Inners inner) (least : Nat) (left : Expr) :
    Carries joint.Near joint.Near Step.goesOn (suffix inner least left)
      (suffix inner least left) := by
  have stops : Carries joint.Inside joint.Near Step.goesOn (pure (Step.done left))
      (pure (Step.done left)) := carries_stop rfl fun _ _ => .inl
  have goes {x : Parse Expr} (carries : Carries joint.First joint.Near (fun _ => true) x x) :
      Carries joint.Inside joint.Near Step.goesOn (do return Step.again (← x))
        (do return Step.again (← x)) :=
    Carries.always (carries.inside.bind fun _ => carries_pure rfl)
  refine Carries.near (carries_peek_inside fun a b alike => ?_)
    (carries_peek_edge fun a b isEnd ends => ?_)
  · rw [← alike.kind, ← alike.newlineBefore]
    split
    · split
      · exact stops
      · exact goes (takes_access inners left).first
    · split
      · exact stops
      · exact Carries.always ((goes_checkTarget left).bindTaking fun _ =>
          Carries.inside (carries_advance fun _ _ _ _ => carries_pure rfl))
    · split
      · exact stops
      · exact goes (carries_conditional inners left)
    · refine carries_allowsIn fun allowed => ?_
      split
      · exact stops
      · exact goes (carries_operate inners _ left)
    · exact stops
  · -- neither the end nor a semicolon is a suffix
    rw [isEnd]
    rcases ends with is | is <;> rw [is] <;> exact carries_stop rfl fun _ _ => .inr

theorem takes_exprBody (inners : joint.Inners inner) (least : Nat) :
    joint.Takes joint.Near (exprBody inner least) := by
  refine (takes_operand inners).bind fun first => ?_
  exact carries_loop (fun _ _ => id) (carries_suffix inners least) first

end Grammar
end Scriptlet
