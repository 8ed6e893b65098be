import Scriptlet.Grammar.Nesting
import Scriptlet.Proofs.Joining.Expressions

/-!
# Statements that end with a text

What the grammar reads as a statement up to the end of a text, it reads as well if a semicolon
stands there. It may take the semicolon as the end of the statement, so it stops before the
semicolon or right after it. Each function of the grammar for statements has its lemma, and
so has every level of the grammar.
-/

namespace Scriptlet
namespace Grammar

variable {joint : Joint} {inner : Inner}

/-- At an end or a semicolon, the end of a statement is a semicolon that may be missing. -/
theorem semicolon_eq {s : State}
    (ends : s.current.kind = .eof ∨ s.current.kind = .symbol .semicolon) :
    semicolon s = (eat (.symbol .semicolon) >>= fun _ => pure ()) s := by
  unfold semicolon
  rcases ends with is | is
  · have missing : s.current.kind ≠ .symbol .semicolon := by simp [is]
    rw [eat_bind_of_ne missing, eat_bind_of_ne missing]
    change (if (s.current.newlineBefore || s.current.kind = .symbol .closeBrace ||
      s.current.kind = .eof : Bool) then pure () else unexpected _ : Parse Unit) s = _
    simp [is]
  · rw [eat_bind_of_eq is, eat_bind_of_eq is]
    rfl

theorem goes_semicolon : Goes joint.Near joint.Far semicolon := by
  have inside : Goes joint.Inside joint.Far semicolon := by
    refine carries_eat_within (fun _ _ => Joint.Inside.toFirst)
      (carries_stop rfl fun _ _ => Joint.Near.far) (carries_peek_inside fun a b alike => ?_)
    rw [← alike.kind, ← alike.newlineBefore]
    split
    · exact carries_stop rfl fun _ _ stands => stands.near.far
    · exact carries_unexpected
  rintro s t a s' (stands | edge) level ran
  · exact inside stands level ran
  · rw [semicolon_eq (.inl edge.ended.kind)] at ran
    rw [semicolon_eq edge.kind]
    exact carries_eat_semicolon (carries_pure rfl) (.inr edge) level ran

theorem takes_condition (inners : joint.Inners inner) :
    joint.Takes joint.Near (condition inner) := by
  refine takes_expect nofun fun _ _ _ => ?_
  exact (carries_withAllowIn true (takes_sequence inners).near).bind fun expr =>
    (takes_close .closeParen expr).near

/-! ## Variables and jumps -/

theorem goes_initializer (inners : joint.Inners inner) :
    Goes joint.Near joint.Near (initializer inner) := by
  refine carries_eat nofun nofun ?_ (carries_pure rfl)
  exact (inners.expr 0).near.bind fun _ => carries_pure rfl

theorem takes_declaration (inners : joint.Inners inner) :
    joint.Takes joint.Near (declaration inner) :=
  takes_expectIdentifier.bind fun _ => (goes_initializer inners).bind fun _ => carries_pure rfl

theorem carries_declarations (inners : joint.Inners inner) :
    Carries joint.First joint.Near (fun _ => true) (declarations inner) (declarations inner) :=
  carries_advance fun _ _ _ _ => (takes_separated (takes_declaration inners)).near

theorem goes_jumpLabel : Goes joint.Near joint.Far jumpLabel := by
  refine Carries.near (carries_peek_inside fun a b alike => ?_)
    (carries_peek_edge fun a b isEnd ends => ?_)
  · rw [← alike.kind, ← alike.lexeme, ← alike.newlineBefore]
    split
    · exact Carries.inside (carries_advance fun _ _ _ _ =>
        goes_semicolon.bind fun _ => carries_pure rfl)
    · exact goes_semicolon.nearInside.bind fun _ => carries_pure rfl
  · rw [isEnd]
    rcases ends with is | is <;> rw [is] <;>
      exact goes_semicolon.nearEdge.bind fun _ => carries_pure rfl

theorem goes_jumpValue (inners : joint.Inners inner) :
    Goes joint.Near joint.Far (jumpValue inner) := by
  refine Carries.near (carries_peek_inside fun a b alike => ?_)
    (carries_peek_edge fun a b isEnd ends => ?_)
  · rw [← alike.kind, ← alike.newlineBefore]
    split
    · exact (takes_sequence inners).first.inside.bind fun _ =>
        goes_semicolon.bind fun _ => carries_pure rfl
    · exact goes_semicolon.nearInside.bind fun _ => carries_pure rfl
  · rw [isEnd]
    rcases ends with is | is <;> rw [is] <;>
      exact goes_semicolon.nearEdge.bind fun _ => carries_pure rfl

/-! ## Branches -/

/-- A second branch does not come into being: the text behind the semicolon does not begin with
`else`. -/
theorem goes_alternate (inners : joint.Inners inner) :
    Goes joint.Far joint.Far (alternate inner) := by
  have near : Goes joint.Near joint.Far (alternate inner) := by
    refine carries_eat nofun nofun ?_ (carries_stop rfl fun _ _ => Joint.Near.far)
    exact inners.stmt.near.bind fun _ => carries_pure rfl
  rintro s t a s' (stands | past) level ran
  · exact near stands level ran
  · have left : s.current.kind ≠ .keyword .else_ := by
      have isEnd : s.current.kind = .eof := past.ended.kind
      simp [isEnd]
    unfold alternate at ran ⊢
    rw [eat_bind_of_ne left] at ran
    -- behind the semicolon the second parse looks at the other text
    rw [eat_bind_of_ne past.kind_ne]
    have stays : Goes joint.Past joint.Far (pure none : Parse (Option Stmt)) :=
      carries_stop rfl fun _ _ => .inr
    exact stays past level ran

theorem carries_ifStmt (inners : joint.Inners inner) :
    Carries joint.First joint.Far (fun _ => true) (ifStmt inner) (ifStmt inner) := by
  refine carries_advance fun _ _ _ _ => (takes_condition inners).near.bind fun _ => ?_
  exact inners.stmt.near.bind fun _ => (goes_alternate inners).bind fun _ => carries_pure rfl

theorem strays_switchClause (inners : joint.Inners inner) (test : Option Expr) :
    Strays (fun _ => True) joint.Any joint.Inside (fun _ => true) (switchClause inner test)
      (switchClause inner test) :=
  strays_expect nofun fun _ _ _ => (strays_stmtList inners).map fun _ _ => trivial

theorem starved_switchStep (cases : List SwitchCase) : Starved (switchStep inner cases) :=
  starved_peekKind starved_unexpected

/-- The statements of a clause may go astray at the end of the text, but then the switch is not
closed. -/
theorem strays_switchStep (inners : joint.Inners inner) (cases : List SwitchCase) :
    Strays (fun found => found.goesOn = true) joint.Near joint.Near (fun _ => true)
      (switchStep inner cases) (switchStep inner cases) := by
  have clause (test : Option Expr) :
      Strays (fun found => found.goesOn = true) joint.Near joint.Near (fun _ => true)
        (do return Step.again ((← switchClause inner test) :: cases))
        (do return Step.again ((← switchClause inner test) :: cases)) := by
    have near := (strays_switchClause inners test).mono (fun _ _ => Joint.Near.any)
      fun _ _ => Joint.Inside.near
    exact near.map fun _ _ => rfl
  have within : Strays (fun found => found.goesOn = true) joint.First joint.Near (fun _ => true)
      (switchStep inner cases) (switchStep inner cases) := by
    refine strays_peekKind (fun _ _ => id) fun kind _ => ?_
    split
    · exact Carries.toStrays (carries_advance fun _ _ _ _ => carries_pure rfl)
    · have test : Goes joint.Near joint.Near (sequence inner) := (takes_sequence inners).near
      exact strays_advance fun _ _ _ _ => test.strays fun test => clause (some test)
    · exact strays_advance fun _ _ _ _ => clause none
    · exact Carries.toStrays carries_unexpected
  rintro s t found s' (inside | edge) level ran
  · exact within inside.toFirst level ran
  · exact absurd ran (starved_switchStep cases edge.ended)

theorem carries_switchStmt (inners : joint.Inners inner) :
    Carries joint.First joint.Far (fun _ => true) (switchStmt inner) (switchStmt inner) := by
  have clauses : Carries joint.Near joint.Near (fun _ => true) (loop (switchStep inner) [])
      (loop (switchStep inner) []) :=
    loop_carries (fun _ _ => id) (strays_switchStep inners)
      (fun _ goes => ⟨goes, starved_switchStep⟩) []
  refine carries_advance fun _ _ _ _ => (takes_condition inners).near.bind fun _ => ?_
  refine Joint.Takes.near (takes_expect nofun fun _ _ _ => ?_)
  exact clauses.always.bind fun _ => carries_stop rfl fun _ _ => Joint.Near.far

/-! ## Loops -/

theorem goes_forHead (inners : joint.Inners inner) :
    Goes joint.Near joint.Near (forHead inner) := by
  have expression : joint.Takes joint.Near (withAllowIn false (sequence inner)) :=
    carries_withAllowIn false (takes_sequence inners)
  refine Carries.near (carries_peekKind (fun _ _ => Joint.Inside.toFirst) fun kind _ => ?_) ?_
  · split
    · exact carries_stop rfl fun _ _ => Joint.Inside.near
    · split
      · exact (carries_withAllowIn false (carries_declarations inners)).always.inside.bind
          fun _ => carries_pure rfl
      · exact expression.first.inside.bind fun _ => carries_pure rfl
  · exact (starved_peekKind expression.starved.bind).edge

theorem goes_forPart (inners : joint.Inners inner) (close : Symbol) :
    Goes joint.Near joint.Near (forPart inner close) := by
  refine Carries.near (carries_peekKind (fun _ _ => Joint.Inside.toFirst) fun kind _ => ?_) ?_
  · split
    · exact carries_stop rfl fun _ _ => Joint.Inside.near
    · exact (takes_sequence inners).first.inside.bind fun _ => carries_pure rfl
  · exact (starved_peekKind (takes_sequence inners).starved.bind).edge

theorem takes_forRest (inners : joint.Inners inner) (init : Option ForHead) :
    joint.Takes joint.Far (forRest inner init) := by
  refine takes_expect nofun fun _ _ _ => (goes_forPart inners .semicolon).bind fun test => ?_
  refine Joint.Takes.near (takes_expect nofun fun _ _ _ => ?_)
  refine (goes_forPart inners .closeParen).bind fun update => ?_
  exact Joint.Takes.near (takes_expect nofun fun _ _ _ =>
    inners.stmt.near.bind fun _ => carries_pure rfl)

theorem carries_forInRest (inners : joint.Inners inner) (head : ForHead) :
    Carries joint.First joint.Far (fun _ => true) (forInRest inner head)
      (forInRest inner head) := by
  refine carries_advance fun _ _ _ _ => (takes_sequence inners).near.bind fun object => ?_
  exact Joint.Takes.near (takes_expect nofun fun _ _ _ =>
    inners.stmt.near.bind fun _ => carries_pure rfl)

theorem carries_forOfRest (inners : joint.Inners inner) (isAwait : Bool) (head : ForHead) :
    Carries joint.First joint.Far (fun _ => true) (forOfRest inner isAwait head)
      (forOfRest inner isAwait head) := by
  refine carries_advance fun _ _ _ _ => (inners.expr 0).near.bind fun iterable => ?_
  exact Joint.Takes.near (takes_expect nofun fun _ _ _ =>
    inners.stmt.near.bind fun _ => carries_pure rfl)

theorem goes_forAfterHead (inners : joint.Inners inner) (isAwait : Bool) (head : ForHead) :
    Goes joint.Near joint.Far (forAfterHead inner isAwait head) := by
  have rest := takes_forRest inners (some head)
  refine carries_peekKind_near (fun kind _ => ?_) rfl (carries_atWord_edge _ ?_)
  · refine carries_atWord _ (fun _ _ => Joint.Inside.toFirst) fun overValues => ?_
    split
    · exact carries_unexpected
    split
    · exact (carries_forInRest inners head).always.inside
    split
    · exact (carries_forOfRest inners isAwait head).always.inside
    split
    · exact carries_unexpected
    · exact rest.first.inside
  · -- neither a loop over keys nor one over values
    cases isAwait with
    | true => exact carries_unexpected
    | false => exact rest.starved.edge

theorem carries_forStmt (inners : joint.Inners inner) :
    Carries joint.First joint.Far (fun _ => true) (forStmt inner) (forStmt inner) := by
  have rest {f : Option ForHead → Parse Stmt} (more : ∀ head, Goes joint.Near joint.Far (f head)) :
      joint.Takes joint.Far (expect (.symbol .openParen) >>= fun _ => forHead inner >>= f) :=
    takes_expect nofun fun _ _ _ => (goes_forHead inners).bind more
  refine carries_advance fun _ _ _ _ => carries_eat nofun nofun ?_ ?_
  · refine (rest fun head => ?_).near
    cases head with
    | some head => exact goes_forAfterHead inners true head
    | none => exact carries_unexpected
  · refine (rest fun head => ?_).near
    cases head with
    | some head => exact goes_forAfterHead inners false head
    | none => exact (takes_forRest inners none).near

theorem carries_doWhileStmt (inners : joint.Inners inner) :
    Carries joint.First joint.Far (fun _ => true) (doWhileStmt inner) (doWhileStmt inner) := by
  refine carries_advance fun _ _ _ _ => inners.stmt.near.bind fun body => ?_
  refine Joint.Takes.far (takes_expect nofun fun _ _ _ => ?_)
  exact (takes_condition inners).near.bind fun _ => carries_eat_semicolon (carries_pure rfl)

theorem carries_whileStmt (inners : joint.Inners inner) :
    Carries joint.First joint.Far (fun _ => true) (whileStmt inner) (whileStmt inner) := by
  refine carries_advance fun _ _ _ _ => (takes_condition inners).near.bind fun _ => ?_
  exact inners.stmt.near.bind fun _ => carries_pure rfl

/-! ## Exceptions -/

theorem goes_catchParam : Goes joint.Near joint.Near catchParam := by
  refine carries_eat nofun nofun ?_ (carries_pure rfl)
  exact takes_expectIdentifier.near.bind fun name => (takes_close .closeParen (some name)).near

theorem goes_handler (inners : joint.Inners inner) :
    Goes joint.Near joint.Near (handler inner) := by
  refine carries_eat nofun nofun ?_ (carries_pure rfl)
  exact goes_catchParam.bind fun _ => (takes_block inners).near.bind fun _ => carries_pure rfl

theorem goes_finalizer (inners : joint.Inners inner) :
    Goes joint.Near joint.Near (finalizer inner) := by
  refine carries_eat nofun nofun ?_ (carries_pure rfl)
  exact (takes_block inners).near.bind fun _ => carries_pure rfl

theorem carries_tryStmt (inners : joint.Inners inner) :
    Carries joint.First joint.Far (fun _ => true) (tryStmt inner) (tryStmt inner) := by
  refine carries_advance fun _ _ _ _ => (takes_block inners).near.bind fun body => ?_
  refine (goes_handler inners).bind fun onError => (goes_finalizer inners).bind fun always => ?_
  split
  · exact carries_unexpected
  · exact carries_stop rfl fun _ _ => Joint.Near.far

/-! ## Modules -/

theorem takes_importName : joint.Takes joint.Near importName := by
  refine takes_memberName.bind fun name => Carries.near ?_ ?_
  · refine carries_atWord _ (fun _ _ => Joint.Inside.toFirst) fun renamed => ?_
    split
    · exact Carries.inside (carries_advance fun _ _ _ _ => takes_expectIdentifier.near)
    · exact carries_stop rfl fun _ _ => Joint.Inside.near
  · exact carries_atWord_edge _ (carries_stop rfl fun _ _ => .inr)

theorem goes_importNames : Goes joint.Near joint.Near importNames := by
  refine carries_peekKind_near (fun kind _ => ?_) rfl (carries_stop rfl fun _ _ => .inr)
  split
  · exact Carries.inside (carries_advance fun _ _ _ _ => (takes_expectWord "as").near.bind fun _ =>
      takes_expectIdentifier.near.bind fun _ => carries_pure rfl)
  · exact Carries.inside (carries_advance fun _ _ _ _ =>
      goes_closedList .closeBrace nofun takes_importName.near)
  · exact carries_stop rfl fun _ _ => .inl

theorem goes_importDefault : Goes joint.Near joint.Near importDefault := by
  refine carries_peekKind_near (fun kind _ => ?_) rfl (carries_stop rfl fun _ _ => .inr)
  split
  · exact takes_expectIdentifier.first.inside.bind fun _ =>
      carries_eat nofun nofun (carries_pure rfl) (carries_pure rfl)
  · exact carries_stop rfl fun _ _ => .inl

theorem goes_importBindings : Goes joint.Near joint.Near importBindings := by
  have named : Goes joint.Near joint.Near (do
      let first ← importDefault
      let names ← importNames
      expectWord "from"
      return first ++ names) :=
    goes_importDefault.bind fun _ => goes_importNames.bind fun _ =>
      (takes_expectWord "from").near.bind fun _ => carries_pure rfl
  refine carries_peekKind_near (fun kind _ => ?_) rfl named.nearEdge
  split
  · exact carries_stop rfl fun _ _ => .inl
  · exact named.nearInside

theorem carries_importStmt :
    Carries joint.First joint.Far (fun _ => true) importStmt importStmt := by
  refine carries_advance fun _ _ _ _ => goes_importBindings.bind fun bindings => ?_
  refine Joint.Takes.near (takes_expect nofun fun a b lexeme => ?_)
  rw [lexeme]
  exact goes_semicolon.bind fun _ => carries_pure rfl

theorem carries_exportStmt (inners : joint.Inners inner) :
    Carries joint.First joint.Far (fun _ => true) (exportStmt inner) (exportStmt inner) := by
  have rest (isDefault : Bool) : Goes joint.Near joint.Far
      (inner.stmt >>= fun stmt => pure (Stmt.export_ isDefault stmt)) :=
    inners.stmt.near.bind fun _ => carries_pure rfl
  exact carries_advance fun _ _ _ _ => carries_eat nofun nofun (rest true) (rest false)

/-! ## All statements -/

theorem carries_variablesStmt (inners : joint.Inners inner) (kind : DeclarationKind) :
    Carries joint.First joint.Far (fun _ => true) (variablesStmt inner kind)
      (variablesStmt inner kind) :=
  (carries_declarations inners).bind fun _ => goes_semicolon.bind fun _ => carries_pure rfl

theorem takes_exprStmt (inners : joint.Inners inner) : joint.Takes joint.Far (exprStmt inner) := by
  refine (takes_sequence inners).bind fun expr => ?_
  have ends : Goes joint.Near joint.Far (semicolon >>= fun _ => pure (Stmt.expression expr)) :=
    goes_semicolon.bind fun _ => carries_pure rfl
  refine carries_peekKind_near (fun kind _ => ?_) (by cases expr <;> rfl) ?_
  · split
    · exact Carries.inside (carries_advance fun _ _ _ _ =>
        inners.stmt.near.bind fun _ => carries_pure rfl)
    · exact ends.nearInside
  · cases expr <;> exact ends.nearEdge

theorem carries_withStmt (inners : joint.Inners inner) :
    Carries joint.First joint.Far (fun _ => true) (withStmt inner) (withStmt inner) := by
  refine carries_advance fun _ _ _ _ => (takes_condition inners).near.bind fun _ => ?_
  exact inners.stmt.near.bind fun _ => carries_pure rfl

theorem carries_throwStmt (inners : joint.Inners inner) :
    Carries joint.First joint.Far (fun _ => true) (throwStmt inner) (throwStmt inner) := by
  refine carries_advance fun _ _ _ _ => (takes_sequence inners).near.bind fun _ => ?_
  exact goes_semicolon.bind fun _ => carries_pure rfl

/-- A statement takes at least one token, and may take the semicolon in the place of the end. -/
theorem takes_stmtBody (inners : joint.Inners inner) : joint.Takes joint.Far (stmtBody inner) := by
  refine takes_peekKind (fun kind _ => ?_) (takes_exprStmt inners).starved
  split
  · exact (takes_block inners).first.bind fun _ => carries_stop rfl fun _ _ => Joint.Near.far
  · exact carries_variablesStmt inners .var
  · exact carries_variablesStmt inners .let_
  · exact carries_variablesStmt inners .const
  · exact carries_importStmt
  · exact carries_exportStmt inners
  · exact carries_advance fun _ _ _ _ => carries_stop rfl fun _ _ => Joint.Near.far
  · exact (takes_function inners true).first.bind fun _ =>
      carries_stop rfl fun _ _ => Joint.Near.far
  · exact carries_ifStmt inners
  · exact carries_doWhileStmt inners
  · exact carries_whileStmt inners
  · exact carries_forStmt inners
  · exact carries_advance fun _ _ _ _ => goes_jumpLabel.bind fun _ => carries_pure rfl
  · exact carries_advance fun _ _ _ _ => goes_jumpLabel.bind fun _ => carries_pure rfl
  · exact carries_advance fun _ _ _ _ => (goes_jumpValue inners).bind fun _ => carries_pure rfl
  · exact carries_advance fun _ _ _ _ => (goes_jumpValue inners).bind fun _ => carries_pure rfl
  · exact carries_withStmt inners
  · exact carries_switchStmt inners
  · exact carries_throwStmt inners
  · exact carries_tryStmt inners
  · exact carries_advance fun _ _ _ _ => goes_semicolon.bind fun _ => carries_pure rfl
  · exact (takes_exprStmt inners).first

/-! ## Levels -/

/-- Every level of the grammar reads the same of both texts, if templates are the same wherever
they stand. -/
theorem Joint.inners_levels {template : Token → Except Error Expr} (limit : Nat)
    (templates : ∀ {a b : Token} {expr : Expr}, a.lexeme = b.lexeme → template a = .ok expr →
      template b = .ok expr) (room : Nat) :
    joint.Inners (levels limit template room) := by
  induction room with
  | zero => exact ⟨fun _ => carries_tooDeep, carries_tooDeep, carries_tooDeep, templates⟩
  | succ room ih =>
    exact ⟨fun least => carries_nested (takes_exprBody ih least),
      carries_nested (takes_stmtBody ih), carries_nested (takes_newBody ih), templates⟩

end Grammar
end Scriptlet
