import Scriptlet.Proofs.Attachment.Expressions

/-!
# Where `else` could still stand

A statement that ends in a condition without `else` was read up to a token other than `else`: a
condition looks for the word when it is done with its first branch, and a statement that ends with
another one stops where that one does. So the first branch of a condition with `else` is closed.
-/

namespace Scriptlet

variable {node : Node → Prop}

namespace Stmt.Attached

variable {stmt : Stmt} {now : Token}

/-- A statement that ends with none. -/
theorem of_none (every : stmt.Every node) (none : stmt.last? = none) : stmt.Attached node now :=
  ⟨every, fun opens => (Stmt.not_openIf none opens).elim⟩

/-- A statement that ends with another one, and is no condition. -/
theorem of_last {last : Stmt} (every : stmt.Every node) (ends : stmt.last? = some last)
    (other : ∀ test consequent, stmt ≠ .if_ test consequent none) (known : last.Attached node now) :
    stmt.Attached node now :=
  ⟨every, fun opens => known.closed (opens.of_last ends other)⟩

end Stmt.Attached

/-- What is known of the head of a loop. -/
structure ForHead.Attached (node : Node → Prop) (head : ForHead) : Prop where
  every : head.Every node
  closed : ∀ expr ∈ head.exprs, ¬ expr.OpenIn

/-- What is known of a variable that was read with `in` as an operator or not. -/
def Declaration.Attached (node : Node → Prop) (allowed : Bool) (declaration : Declaration) : Prop :=
  ∀ expr, declaration.init = some expr → expr.Attached node allowed

theorem Declaration.Attached.every {allowed : Bool} {declaration : Declaration}
    (known : declaration.Attached node allowed) : declaration.Every node := by
  obtain ⟨name, init⟩ := declaration
  cases init with
  | none => trivial
  | some expr => exact (known expr rfl).every

/-- Variables that were read while `in` is no operator are closed for it. -/
theorem ForHead.attached_declaration {kind : DeclarationKind} {declarations : List Declaration}
    (known : ∀ declaration ∈ declarations, declaration.Attached node false) :
    (ForHead.declaration kind declarations).Attached node where
  every := (everyDeclaration_iff _).mpr fun declaration among => (known declaration among).every
  closed expr among := by
    obtain ⟨declaration, among, init⟩ := List.mem_filterMap.mp among
    exact (known declaration among expr init).closed rfl

namespace Grammar
namespace Attaching

variable {inner inner' : Inner} {allowed : Bool} {pre : Token → Prop}

/-- Statements other than loops and conditions with `else`. -/
theorem settled_stmt (inners : Attaching node inner inner') {stmt : Stmt}
    (noHead : stmt.head? = none) (ifs : Node.IfsClosed (.stmt stmt)) : node (.stmt stmt) :=
  inners.settled (fun _ head => nomatch noHead.symm.trans head) ifs

/-- Loops with a head. -/
theorem settled_loop (inners : Attaching node inner inner') {stmt : Stmt} {head : ForHead}
    (isHead : stmt.head? = some head) (ifs : Node.IfsClosed (.stmt stmt))
    (known : head.Attached node) : node (.stmt stmt) := by
  refine inners.settled (fun other found => ?_) ifs
  obtain rfl := Option.some.inj (isHead.symm.trans found)
  exact known.closed

theorem condition (inners : Attaching node inner inner') :
    MeetsAt allowed pre (fun test _ => test.Every node) (condition inner) (condition inner') := by
  refine meets_expecting fun _ => (meets_withAllowIn inners.sequence).passing fun _ known => ?_
  exact meets_expecting fun _ => meets_value known.every

/-- The end of a statement, after which nothing is left to read. -/
theorem ending {α : Type} {good : α → Token → Prop} {a : α} (holds : ∀ now, good a now) :
    MeetsAt allowed pre good (do semicolon; return a) (do semicolon; return a) :=
  (meets_of_follows fun _ => Terms.follows_semicolon).passing fun _ _ => meets_pure fun now _ =>
    holds now

/-- A statement other than a condition that ends with its body stops where the body does. -/
theorem body (inners : Attaching node inner inner') (around : Stmt → Stmt)
    (ends : ∀ body, (around body).last? = some body)
    (other : ∀ body test consequent, around body ≠ .if_ test consequent none)
    (every : ∀ {body}, body.Every node → (around body).Every node) :
    MeetsAt true pre (Stmt.Attached node) (do return around (← inner.stmt))
      (do return around (← inner'.stmt)) := by
  refine inners.stmt.at.bind fun body => meets_pure fun now read => ?_
  exact .of_last (every read.every) (ends body) (other body) read

/-! ## Variables and jumps -/

theorem declarations (inners : Attaching node inner inner') :
    MeetsAt allowed pre
      (fun items _ => ∀ declaration ∈ items, declaration.Attached node allowed)
      (declarations inner) (declarations inner') := by
  have initializer : Meets allowed
      (fun init => ∀ expr, init = some expr → expr.Attached node allowed) (initializer inner)
      (initializer inner') := by
    refine meets_ifEat ((inners.expr 0).passing fun _ known => meets_value ?_) (meets_value nofun)
    rintro _ ⟨⟩
    exact known
  have declaration : Meets allowed (Declaration.Attached node allowed) (declaration inner)
      (declaration inner') :=
    (meets_of_follows fun _ => Terms.follows_expectIdentifier).passing fun _ _ =>
      initializer.passing fun _ known => meets_value known
  exact meets_advancing fun _ => meets_separated declaration

theorem jumpValue (inners : Attaching node inner inner') :
    MeetsAt allowed pre (fun value _ => everyOptionalExpr node value) (jumpValue inner)
      (jumpValue inner') := by
  refine meets_peek fun token _ => ?_
  split
  · exact inners.sequence.passing fun _ known => ending fun _ => known.every
  · exact ending fun _ => trivial

/-! ## Branches -/

/-- A condition takes `else` where it finds it: a first branch that could have taken the word did
not end before it. -/
theorem alternate (inners : Attaching node inner inner') {test : Expr} (known : test.Every node)
    (consequent : Stmt) :
    MeetsAt true (consequent.Attached node)
      (fun found now => (Stmt.if_ test consequent found).Attached node now) (alternate inner)
      (alternate inner') := by
  refine meets_eat.bind fun found => ?_
  cases found with
  | true =>
    refine MeetsAt.assuming (fun now known => known.1 rfl) fun ⟨token, first, isElse⟩ => ?_
    have closed : ¬ consequent.OpenIf := fun opens => first.closed opens isElse
    refine inners.stmt.at.bind fun second => meets_pure fun now read => ?_
    refine .of_last ?_ rfl nofun read
    exact ⟨inners.settled_stmt rfl closed, known, first.every, read.every⟩
  | false =>
    refine meets_pure fun now kept => ?_
    obtain ⟨first, noElse⟩ := kept.2 rfl
    exact ⟨⟨inners.settled_stmt rfl trivial, known, first.every, trivial⟩, fun _ => noElse⟩

theorem ifStmt (inners : Attaching node inner inner') :
    MeetsAt true pre (Stmt.Attached node) (ifStmt inner) (ifStmt inner') := by
  refine meets_advancing fun _ => inners.condition.passing fun test known => ?_
  refine inners.stmt.bind fun consequent => ?_
  exact (inners.alternate known consequent).bind fun _ => meets_pure fun _ read => read

theorem switchClause (inners : Attaching node inner inner') {test : Option Expr}
    (known : everyOptionalExpr node test) :
    MeetsAt true pre (fun clause _ => clause.Every node) (switchClause inner test)
      (switchClause inner' test) :=
  meets_expecting fun _ => inners.stmtList.passing fun _ body => meets_value ⟨known, body⟩

theorem switchStep (inners : Attaching node inner inner') {cases : List SwitchCase}
    (kept : ∀ clause ∈ cases, clause.Every node) :
    Meets true (fun found => ∀ clause ∈ found.value, clause.Every node) (switchStep inner cases)
      (switchStep inner' cases) := by
  -- A clause with a test and one without it go on in the same way.
  have more {test : Option Expr} (known : everyOptionalExpr node test) :
      Meets true (fun found => ∀ clause ∈ found.value, clause.Every node)
        (do return Step.again ((← Grammar.switchClause inner test) :: cases))
        (do return Step.again ((← Grammar.switchClause inner' test) :: cases)) :=
    (inners.switchClause known).passing fun _ clause =>
      meets_value (List.forall_mem_cons.mpr ⟨clause, kept⟩)
  refine meets_peekKind fun kind => ?_
  split
  · exact meets_advancing fun _ => meets_value kept
  · exact meets_advancing fun _ => inners.sequence.passing fun _ known => more known.every
  · exact meets_advancing fun _ => more trivial
  · exact meets_unexpected

theorem switchStmt (inners : Attaching node inner inner') :
    MeetsAt true pre (Stmt.Attached node) (switchStmt inner) (switchStmt inner') := by
  refine meets_advancing fun _ => inners.condition.passing fun _ discriminant => ?_
  refine meets_expecting fun _ => ?_
  have looped : Meets true (fun cases => ∀ clause ∈ cases, clause.Every node)
      (loop (Grammar.switchStep inner) []) (loop (Grammar.switchStep inner') []) :=
    meets_loop (fun _ kept => inners.switchStep kept) (List.forall_mem_nil _)
  refine looped.passing fun cases each => meets_pure fun _ _ => .of_none ?_ rfl
  refine ⟨inners.settled_stmt rfl trivial, discriminant, (everyCase_iff _).mpr ?_⟩
  simpa using each

/-! ## Loops -/

/-- The head of a loop is read while `in` is no operator. -/
theorem forHead (inners : Attaching node inner inner') :
    MeetsAt allowed pre (fun found _ => ∀ head, found = some head → head.Attached node)
      (forHead inner) (forHead inner') := by
  refine meets_peekKind fun kind => ?_
  split
  · exact meets_value nofun
  · split
    · refine (meets_withAllowIn inners.declarations).passing fun _ known => meets_value ?_
      rintro _ ⟨⟩
      exact ForHead.attached_declaration known
    · refine (meets_withAllowIn inners.sequence).passing fun _ known => meets_value ?_
      rintro _ ⟨⟩
      exact ⟨known.every, List.forall_mem_singleton.mpr (known.closed rfl)⟩

theorem forPart (inners : Attaching node inner inner') (close : Symbol) :
    MeetsAt allowed pre (fun part _ => everyOptionalExpr node part) (forPart inner close)
      (forPart inner' close) := by
  refine meets_peekKind fun kind => ?_
  split
  · exact meets_value trivial
  · exact inners.sequence.passing fun _ known => meets_value known.every

theorem forRest (inners : Attaching node inner inner') {init : Option ForHead}
    (known : ∀ head, init = some head → head.Attached node) :
    MeetsAt true pre (Stmt.Attached node) (forRest inner init) (forRest inner' init) := by
  refine meets_expecting fun _ => (inners.forPart _).passing fun _ test => ?_
  refine meets_expecting fun _ => (inners.forPart _).passing fun _ update => ?_
  refine meets_expecting fun _ => inners.body (.for_ init _ _) (fun _ => rfl) nofun fun body => ?_
  cases init with
  | none => exact ⟨inners.settled_stmt rfl trivial, trivial, test, update, body⟩
  | some head =>
    have known := known head rfl
    exact ⟨inners.settled_loop rfl trivial known, known.every, test, update, body⟩

theorem forInRest (inners : Attaching node inner inner') {head : ForHead}
    (known : head.Attached node) :
    MeetsAt true pre (Stmt.Attached node) (forInRest inner head) (forInRest inner' head) := by
  refine meets_advancing fun _ => inners.sequence.passing fun _ object => ?_
  refine meets_expecting fun _ => inners.body (.forIn head _) (fun _ => rfl) nofun fun body => ?_
  exact ⟨inners.settled_loop rfl trivial known, known.every, object.every, body⟩

theorem forOfRest (inners : Attaching node inner inner') (isAwait : Bool) {head : ForHead}
    (known : head.Attached node) :
    MeetsAt true pre (Stmt.Attached node) (forOfRest inner isAwait head)
      (forOfRest inner' isAwait head) := by
  refine meets_advancing fun _ => (inners.expr 0).passing fun _ iterable => ?_
  refine meets_expecting fun _ => ?_
  refine inners.body (.forOf isAwait head _) (fun _ => rfl) nofun fun body => ?_
  exact ⟨inners.settled_loop rfl trivial known, known.every, iterable.every, body⟩

theorem forAfterHead (inners : Attaching node inner inner') (isAwait : Bool) {head : ForHead}
    (known : head.Attached node) :
    MeetsAt true pre (Stmt.Attached node) (forAfterHead inner isAwait head)
      (forAfterHead inner' isAwait head) := by
  refine meets_peekKind fun kind => meets_atWord _ fun overValues => ?_
  split
  · exact meets_unexpected
  split
  · exact inners.forInRest known
  split
  · exact inners.forOfRest isAwait known
  split
  · exact meets_unexpected
  · refine inners.forRest ?_
    rintro _ ⟨⟩
    exact known

theorem forStmt (inners : Attaching node inner inner') :
    MeetsAt true pre (Stmt.Attached node) (forStmt inner) (forStmt inner') := by
  refine meets_advancing fun _ => meets_eating fun isAwait => ?_
  refine meets_expecting fun _ => inners.forHead.passing fun head known => ?_
  cases head with
  | some head => exact inners.forAfterHead isAwait (known head rfl)
  | none =>
    dsimp only
    split
    · exact meets_unexpected
    · exact inners.forRest nofun

theorem doWhileStmt (inners : Attaching node inner inner') :
    MeetsAt true pre (Stmt.Attached node) (doWhileStmt inner) (doWhileStmt inner') := by
  have body : Meets true (Stmt.Every node) inner.stmt inner'.stmt :=
    inners.stmt.weaken fun _ _ read => read.every
  refine meets_advancing fun _ => body.passing fun _ body => ?_
  refine meets_expecting fun _ => inners.condition.passing fun _ test => ?_
  refine meets_eating fun _ => meets_pure fun _ _ => .of_none ?_ rfl
  exact ⟨inners.settled_stmt rfl trivial, body, test⟩

theorem whileStmt (inners : Attaching node inner inner') :
    MeetsAt true pre (Stmt.Attached node) (whileStmt inner) (whileStmt inner') := by
  refine meets_advancing fun _ => inners.condition.passing fun _ test => ?_
  refine inners.body (.while_ _) (fun _ => rfl) nofun fun body => ?_
  exact ⟨inners.settled_stmt rfl trivial, test, body⟩

/-! ## Exceptions -/

theorem handler (inners : Attaching node inner inner') :
    MeetsAt allowed pre (fun clause _ => everyHandler node clause) (handler inner)
      (handler inner') := by
  refine meets_ifEat ?_ (meets_value trivial)
  refine (meets_of_follows fun _ => Terms.follows_catchParam).passing fun _ _ => ?_
  exact inners.block.passing fun _ body => meets_value body

theorem finalizer (inners : Attaching node inner inner') :
    MeetsAt allowed pre (fun body _ => everyOptionalBody node body) (finalizer inner)
      (finalizer inner') :=
  meets_ifEat (inners.block.passing fun _ body => meets_value body) (meets_value trivial)

theorem tryStmt (inners : Attaching node inner inner') :
    MeetsAt true pre (Stmt.Attached node) (tryStmt inner) (tryStmt inner') := by
  refine meets_advancing fun _ => inners.block.passing fun _ body => ?_
  refine inners.handler.passing fun _ caught => inners.finalizer.passing fun _ final => ?_
  split
  · exact meets_unexpected
  · refine meets_pure fun _ _ => .of_none ?_ rfl
    exact ⟨inners.settled_stmt rfl trivial, body, caught, final⟩

/-! ## All statements -/

theorem importStmt (inners : Attaching node inner inner') :
    MeetsAt true pre (Stmt.Attached node) importStmt importStmt := by
  refine meets_advancing fun _ => ?_
  refine (meets_of_follows fun _ => Terms.follows_importBindings).passing fun _ _ => ?_
  refine meets_expecting fun _ => ending fun _ => .of_none ?_ rfl
  exact inners.settled_stmt rfl trivial

theorem exportStmt (inners : Attaching node inner inner') :
    MeetsAt true pre (Stmt.Attached node) (exportStmt inner) (exportStmt inner') := by
  refine meets_advancing fun _ => meets_eating fun _ => ?_
  refine inners.body (.export_ _) (fun _ => rfl) nofun fun body => ?_
  exact ⟨inners.settled_stmt rfl trivial, body⟩

theorem variablesStmt (inners : Attaching node inner inner') (kind : DeclarationKind) :
    MeetsAt true pre (Stmt.Attached node) (variablesStmt inner kind)
      (variablesStmt inner' kind) := by
  refine inners.declarations.passing fun items known => ending fun _ => .of_none ?_ rfl
  refine ⟨inners.settled_stmt rfl trivial, (everyDeclaration_iff _).mpr fun item among => ?_⟩
  exact (known item among).every

theorem exprStmt (inners : Attaching node inner inner') :
    MeetsAt true pre (Stmt.Attached node) (exprStmt inner) (exprStmt inner') := by
  refine inners.sequence.passing fun expr known => meets_peekKind fun kind => ?_
  split
  · refine meets_advancing fun _ => inners.body (.labelled _) (fun _ => rfl) nofun fun body => ?_
    exact ⟨inners.settled_stmt rfl trivial, body⟩
  · exact ending fun _ => .of_none ⟨inners.settled_stmt rfl trivial, known.every⟩ rfl

theorem withStmt (inners : Attaching node inner inner') :
    MeetsAt true pre (Stmt.Attached node) (withStmt inner) (withStmt inner') := by
  refine meets_advancing fun _ => inners.condition.passing fun _ object => ?_
  refine inners.body (.with_ _) (fun _ => rfl) nofun fun body => ?_
  exact ⟨inners.settled_stmt rfl trivial, object, body⟩

theorem throwStmt (inners : Attaching node inner inner') :
    MeetsAt true pre (Stmt.Attached node) (throwStmt inner) (throwStmt inner') := by
  refine meets_advancing fun _ => inners.sequence.passing fun _ known => ending fun _ => ?_
  exact .of_none ⟨inners.settled_stmt rfl trivial, known.every⟩ rfl

theorem stmtBody (inners : Attaching node inner inner') :
    MeetsAt true pre (Stmt.Attached node) (stmtBody inner) (stmtBody inner') := by
  -- What ends with no statement and is read as a whole.
  have plain {stmt : Stmt} {pre : Token → Prop} (every : stmt.Every node)
      (none : stmt.last? = none) : MeetsAt true pre (Stmt.Attached node) (pure stmt) (pure stmt) :=
    meets_pure fun _ _ => .of_none every none
  have label : Meets true (fun _ => True) jumpLabel jumpLabel :=
    meets_of_follows fun _ => Terms.follows_jumpLabel
  refine meets_peekKind fun kind => ?_
  split
  · exact inners.block.passing fun _ body => plain ⟨inners.settled_stmt rfl trivial, body⟩ rfl
  · exact inners.variablesStmt _
  · exact inners.variablesStmt _
  · exact inners.variablesStmt _
  · exact inners.importStmt
  · exact inners.exportStmt
  · exact meets_advancing fun _ => plain (inners.settled_stmt rfl trivial) rfl
  · exact (inners.function true).passing fun _ definition =>
      plain ⟨inners.settled_stmt rfl trivial, definition⟩ rfl
  · exact inners.ifStmt
  · exact inners.doWhileStmt
  · exact inners.whileStmt
  · exact inners.forStmt
  · exact meets_advancing fun _ => label.passing fun _ _ =>
      plain (inners.settled_stmt rfl trivial) rfl
  · exact meets_advancing fun _ => label.passing fun _ _ =>
      plain (inners.settled_stmt rfl trivial) rfl
  · exact meets_advancing fun _ => inners.jumpValue.passing fun _ value =>
      plain ⟨inners.settled_stmt rfl trivial, value⟩ rfl
  · exact meets_advancing fun _ => inners.jumpValue.passing fun _ value =>
      plain ⟨inners.settled_stmt rfl trivial, value⟩ rfl
  · exact inners.withStmt
  · exact inners.switchStmt
  · exact inners.throwStmt
  · exact inners.tryStmt
  · exact meets_advancing fun _ => ending fun _ =>
      .of_none (inners.settled_stmt rfl trivial) rfl
  · exact inners.exprStmt

end Attaching
end Grammar
end Scriptlet
