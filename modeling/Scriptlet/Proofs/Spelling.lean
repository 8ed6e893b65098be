import Mathlib.Data.List.Forall2
import Scriptlet.Grammar.Operation

/-!
# The tokens of an expression

An expression made of names, literals, operators, calls and accesses is written as a
sequence of tokens, its parts in the order of the text. `Expr.pieces` lists what each of
these tokens has to be; `Spells` relates the list to tokens.

The tables from operators to tokens stand here by themselves; that they agree with the
tables that a parse consults is proved below.
-/

namespace Scriptlet

/-! ## Operators -/

/-- The token of an operator in front of its operand. -/
def UnaryOp.kind : UnaryOp → Kind
  | .delete => .keyword .delete
  | .void => .keyword .void
  | .typeof => .keyword .typeof
  | .plus => .symbol .plus
  | .minus => .symbol .minus
  | .bitNot => .symbol .tilde
  | .not => .symbol .bang
  | .await => .keyword .await

/-- The token of an update. -/
def UpdateOp.kind : UpdateOp → Kind
  | .increment => .symbol .plusPlus
  | .decrement => .symbol .minusMinus

/-- The token of a binary operator. -/
def BinaryOp.kind : BinaryOp → Kind
  | .logicalOr => .symbol .pipePipe
  | .logicalAnd => .symbol .ampersandAmpersand
  | .bitOr => .symbol .pipe
  | .bitXor => .symbol .caret
  | .bitAnd => .symbol .ampersand
  | .equal => .symbol .equalsEquals
  | .notEqual => .symbol .bangEquals
  | .strictEqual => .symbol .equalsEqualsEquals
  | .strictNotEqual => .symbol .bangEqualsEquals
  | .in_ => .keyword .in_
  | .instanceof => .keyword .instanceof
  | .lessThan => .symbol .lessThan
  | .lessThanEqual => .symbol .lessThanEquals
  | .greaterThan => .symbol .greaterThan
  | .greaterThanEqual => .symbol .greaterThanEquals
  | .shiftLeft => .symbol .shiftLeft
  | .shiftRight => .symbol .shiftRight
  | .unsignedShiftRight => .symbol .unsignedShiftRight
  | .coalesce => .symbol .questionQuestion
  | .add => .symbol .plus
  | .subtract => .symbol .minus
  | .multiply => .symbol .asterisk
  | .divide => .symbol .slash
  | .remainder => .symbol .percent
  | .power => .symbol .asteriskAsterisk

/-- The token that joins a binary operator with an assignment, if there is one. -/
def BinaryOp.assigningKind? : BinaryOp → Option Kind
  | .bitOr => some (.symbol .pipeEquals)
  | .bitXor => some (.symbol .caretEquals)
  | .bitAnd => some (.symbol .ampersandEquals)
  | .shiftLeft => some (.symbol .shiftLeftEquals)
  | .shiftRight => some (.symbol .shiftRightEquals)
  | .unsignedShiftRight => some (.symbol .unsignedShiftRightEquals)
  | .coalesce => some (.symbol .questionQuestionEquals)
  | .add => some (.symbol .plusEquals)
  | .subtract => some (.symbol .minusEquals)
  | .multiply => some (.symbol .asteriskEquals)
  | .divide => some (.symbol .slashEquals)
  | .remainder => some (.symbol .percentEquals)
  | .power => some (.symbol .asteriskAsteriskEquals)
  | _ => none

/-- The token of an operation between two operands, if it has one. -/
def Operation.kind? : Operation → Option Kind
  | .assign => some (.symbol .equals)
  | .assignWith op => op.assigningKind?
  | .binary op => some op.kind

theorem Kind.unary?_eq_some_iff {kind : Kind} {op : UnaryOp} :
    kind.unary? = some op ↔ kind = op.kind := by
  constructor
  · intro found
    cases kind with
    | keyword word => cases word <;> cases found <;> rfl
    | symbol mark => cases mark <;> cases found <;> rfl
    | _ => cases found
  · rintro rfl
    cases op <;> rfl

theorem Kind.operation?_eq_some_iff {kind : Kind} {operation : Operation} :
    kind.operation? = some operation ↔ operation.kind? = some kind := by
  constructor
  · intro found
    cases kind with
    | keyword word => cases word <;> cases found <;> rfl
    | symbol mark => cases mark <;> cases found <;> rfl
    | _ => cases found
  · intro found
    cases operation with
    | assign => cases found; rfl
    | assignWith op => cases op <;> cases found <;> rfl
    | binary op => cases op <;> cases found <;> rfl

/-- A token between two operands has the powers of its operation, and assigns if the
operation does. -/
theorem Kind.powers?_of_operation {kind : Kind} {operation : Operation}
    (found : kind.operation? = some operation) :
    kind.powers? = some operation.powers ∧ kind.assigns = operation.assigns := by
  cases kind with
  | keyword word => cases word <;> cases found <;> exact ⟨rfl, rfl⟩
  | symbol mark => cases mark <;> cases found <;> exact ⟨rfl, rfl⟩
  | _ => cases found

/-- After an operand, the token of an operation begins that operation. -/
theorem Kind.suffix_of_operation {kind : Kind} {operation : Operation}
    (found : kind.operation? = some operation) :
    kind.suffix = .operation operation.powers := by
  cases kind with
  | keyword word => cases word <;> cases found <;> rfl
  | symbol mark => cases mark <;> cases found <;> rfl
  | _ => cases found

theorem Kind.eq_of_suffix_update {kind : Kind} {op : UpdateOp}
    (found : kind.suffix = .update op) : kind = op.kind := by
  cases kind with
  | keyword word => cases word <;> cases found
  | symbol mark => cases mark <;> cases found <;> rfl
  | _ => cases found

theorem Kind.eq_of_suffix_conditional {kind : Kind} (found : kind.suffix = .conditional) :
    kind = .symbol .question := by
  cases kind with
  | keyword word => cases word <;> cases found
  | symbol mark => cases mark <;> cases found; rfl
  | _ => cases found

theorem Kind.eq_of_suffix_access {kind : Kind} (found : kind.suffix = .access) :
    kind = .symbol .openParen ∨ kind = .symbol .dot ∨ kind = .symbol .openBracket ∨
      kind = .symbol .questionDot := by
  cases kind with
  | keyword word => cases word <;> cases found
  | symbol mark => cases mark <;> cases found <;> decide
  | _ => cases found

/-- A token that begins an operation after an operand stands for one. -/
theorem Kind.operation?_of_suffix {kind : Kind} {powers : Nat × Nat}
    (found : kind.suffix = .operation powers) : ∃ operation, kind.operation? = some operation := by
  cases kind with
  | keyword word => cases word <;> cases found <;> exact ⟨_, rfl⟩
  | symbol mark => cases mark <;> cases found <;> exact ⟨_, rfl⟩
  | _ => cases found

/-! ## Pieces -/

/-- What one token of an expression has to be. -/
inductive Piece where
  /-- A token that is always written the same way. -/
  | fixed (kind : Kind)
  /-- The token that joins an operator with an assignment. -/
  | assigning (op : BinaryOp)
  /-- Any lexeme that reads as the number. -/
  | number (value : Float)
  | string (text : String)
  | boolean (value : Bool)
  | identifier (name : String)
  /-- The name of a property: any word, reserved or not. -/
  | word (name : String)

/-- Whether a token is what it has to be. -/
def Piece.Fits : Piece → Token → Prop
  | .fixed kind, token => token.kind = kind
  | .assigning op, token => op.assigningKind? = some token.kind
  | .number value, token => token.kind = .number ∧ Grammar.numberOf token = .ok value
  | .string text, token => token.kind = .string ∧ token.lexeme = text
  | .boolean value, token =>
    token.kind = .boolean ∧ token.lexeme = if value then "true" else "false"
  | .identifier name, token => token.kind = .identifier ∧ token.lexeme = name
  | .word name, token => token.kind.isWord ∧ token.lexeme = name

mutual

/-- What the tokens of an expression have to be. Other forms of expressions have no
pieces here. -/
def Expr.pieces : Expr → List Piece
  | .number value => [.number value]
  | .string text => [.string text]
  | .boolean value => [.boolean value]
  | .null => [.fixed .null]
  | .identifier name => [.identifier name]
  | .this => [.fixed (.keyword .this)]
  | .parenthesized inner =>
    .fixed (.symbol .openParen) :: (inner.pieces ++ [.fixed (.symbol .closeParen)])
  | .sequence members => sequencePieces members
  | .unary op operand => .fixed op.kind :: operand.pieces
  | .update op .before target => .fixed op.kind :: target.pieces
  | .update op .after target => target.pieces ++ [.fixed op.kind]
  | .binary op left right => left.pieces ++ .fixed op.kind :: right.pieces
  | .conditional test consequent alternate =>
    test.pieces ++ .fixed (.symbol .question) :: (consequent.pieces ++
      .fixed (.symbol .colon) :: alternate.pieces)
  | .assign target value => target.pieces ++ .fixed (.symbol .equals) :: value.pieces
  | .assignWith op target value => target.pieces ++ .assigning op :: value.pieces
  | .call callee arguments =>
    callee.pieces ++ .fixed (.symbol .openParen) :: (argumentPieces arguments ++
      [.fixed (.symbol .closeParen)])
  | .member object property => object.pieces ++ [.fixed (.symbol .dot), .word property]
  | .index object key =>
    object.pieces ++ .fixed (.symbol .openBracket) :: (key.pieces ++
      [.fixed (.symbol .closeBracket)])
  | .optional object access =>
    object.pieces ++ .fixed (.symbol .questionDot) :: access.pieces
  | _ => []
termination_by structural expr => expr

/-- What the tokens after `?.` have to be. -/
def Access.pieces : Access → List Piece
  | .member property => [.word property]
  | .index key =>
    .fixed (.symbol .openBracket) :: (key.pieces ++ [.fixed (.symbol .closeBracket)])
  | .call arguments =>
    .fixed (.symbol .openParen) :: (argumentPieces arguments ++
      [.fixed (.symbol .closeParen)])

/-- Expressions with commas between them. -/
def sequencePieces : List Expr → List Piece
  | [] => []
  | first :: rest =>
    first.pieces ++
      match rest with
      | [] => []
      | _ :: _ => .fixed (.symbol .comma) :: sequencePieces rest

/-- An argument, which may be spread. -/
def Argument.pieces : Argument → List Piece
  | ⟨spread, expr⟩ =>
    if spread then .fixed (.symbol .ellipsis) :: expr.pieces else expr.pieces

/-- Arguments with commas between them. -/
def argumentPieces : List Argument → List Piece
  | [] => []
  | first :: rest =>
    first.pieces ++
      match rest with
      | [] => []
      | _ :: _ => .fixed (.symbol .comma) :: argumentPieces rest

end

/-- Lists with a comma between each two of them. -/
def commaSeparated : List (List Piece) → List Piece
  | [] => []
  | [pieces] => pieces
  | pieces :: next :: rest =>
    pieces ++ .fixed (.symbol .comma) :: commaSeparated (next :: rest)

theorem sequencePieces_eq (members : List Expr) :
    sequencePieces members = commaSeparated (members.map Expr.pieces) := by
  induction members with
  | nil => rfl
  | cons first rest ih =>
    cases rest with
    | nil => simp [sequencePieces, commaSeparated]
    | cons second rest => rw [sequencePieces, ih]; rfl

theorem argumentPieces_eq (arguments : List Argument) :
    argumentPieces arguments = commaSeparated (arguments.map Argument.pieces) := by
  induction arguments with
  | nil => rfl
  | cons first rest ih =>
    cases rest with
    | nil => simp [argumentPieces, commaSeparated]
    | cons second rest => rw [argumentPieces, ih]; rfl

theorem commaSeparated_cons {first : List Piece} {rest : List (List Piece)}
    (more : rest ≠ []) :
    commaSeparated (first :: rest) =
      first ++ .fixed (.symbol .comma) :: commaSeparated rest := by
  cases rest with
  | nil => exact absurd rfl more
  | cons second rest => rfl

/-- Items that are each followed by a comma, and a last one. -/
theorem commaSeparated_concat (lists : List (List Piece)) (last : List Piece) :
    commaSeparated (lists ++ [last]) =
      lists.flatMap (· ++ [.fixed (.symbol .comma)]) ++ last := by
  induction lists with
  | nil => rfl
  | cons first rest ih =>
    rw [List.cons_append, commaSeparated_cons (by simp), ih]
    simp

/-! ## Spelling -/

/-- Whether tokens are those of an expression, in order. -/
def Spells (expr : Expr) (tokens : List Token) : Prop :=
  List.Forall₂ Piece.Fits expr.pieces tokens

/-- Whether `left` is what follows the given pieces in `tokens`. -/
def Takes : List Piece → (tokens left : List Token) → Prop
  | [], tokens, left => tokens = left
  | piece :: pieces, tokens, left =>
    ∃ token after, tokens = token :: after ∧ piece.Fits token ∧ Takes pieces after left

theorem takes_append_iff {first second : List Piece} {tokens left : List Token} :
    Takes (first ++ second) tokens left ↔
      ∃ middle, Takes first tokens middle ∧ Takes second middle left := by
  induction first generalizing tokens with
  | nil => simp [Takes]
  | cons piece pieces ih =>
    simp only [List.cons_append, Takes, ih]
    constructor
    · rintro ⟨token, after, rfl, fits, middle, before, rest⟩
      exact ⟨middle, ⟨token, after, rfl, fits, before⟩, rest⟩
    · rintro ⟨middle, ⟨token, after, rfl, fits, before⟩, rest⟩
      exact ⟨token, after, rfl, fits, middle, before, rest⟩

theorem Takes.append {first second : List Piece} {tokens middle left : List Token}
    (before : Takes first tokens middle) (after : Takes second middle left) :
    Takes (first ++ second) tokens left :=
  takes_append_iff.mpr ⟨middle, before, after⟩

theorem Takes.cons {piece : Piece} {pieces : List Piece} {token : Token}
    {after left : List Token} (fits : piece.Fits token) (rest : Takes pieces after left) :
    Takes (piece :: pieces) (token :: after) left :=
  ⟨token, after, rfl, fits, rest⟩

theorem Takes.one {piece : Piece} {token : Token} {left : List Token}
    (fits : piece.Fits token) : Takes [piece] (token :: left) left :=
  .cons fits rfl

theorem Takes.fixed {kind : Kind} {token : Token} {left : List Token}
    (same : token.kind = kind) : Takes [.fixed kind] (token :: left) left :=
  .one same

theorem Takes.suffix {pieces : List Piece} {tokens left : List Token}
    (taken : Takes pieces tokens left) : left <:+ tokens := by
  induction pieces generalizing tokens with
  | nil => obtain rfl := taken; exact List.suffix_rfl
  | cons piece pieces ih =>
    obtain ⟨token, after, rfl, _, rest⟩ := taken
    exact (ih rest).trans (List.suffix_cons token after)

theorem Takes.length_lt {piece : Piece} {pieces : List Piece} {tokens left : List Token}
    (taken : Takes (piece :: pieces) tokens left) : left.length < tokens.length := by
  obtain ⟨token, after, rfl, _, rest⟩ := taken
  have := rest.suffix.length_le
  simp only [List.length_cons]
  omega

/-- An operation is written with its token between its operands. -/
theorem Operation.takes_apply_iff {operation : Operation} {left right : Expr}
    {tokens rest : List Token} :
    Takes (operation.apply left right).pieces tokens rest ↔
      ∃ token middle, Takes left.pieces tokens (token :: middle) ∧
        token.kind.operation? = some operation ∧ Takes right.pieces middle rest := by
  have pieces_eq : ∃ piece : Piece, (operation.apply left right).pieces =
      left.pieces ++ piece :: right.pieces ∧
      ∀ token, piece.Fits token ↔ token.kind.operation? = some operation := by
    cases operation with
    | assign =>
      refine ⟨.fixed (.symbol .equals), by simp [Operation.apply, Expr.pieces], fun token => ?_⟩
      rw [Kind.operation?_eq_some_iff]
      exact ⟨fun same => congrArg some same.symm, fun same => (Option.some.inj same).symm⟩
    | assignWith op =>
      refine ⟨.assigning op, by simp [Operation.apply, Expr.pieces], fun token => ?_⟩
      rw [Kind.operation?_eq_some_iff]
      rfl
    | binary op =>
      refine ⟨.fixed op.kind, by simp [Operation.apply, Expr.pieces], fun token => ?_⟩
      rw [Kind.operation?_eq_some_iff]
      exact ⟨fun same => congrArg some same.symm, fun same => (Option.some.inj same).symm⟩
  obtain ⟨piece, same, fits⟩ := pieces_eq
  rw [same, takes_append_iff]
  constructor
  · rintro ⟨_, first, ⟨token, middle, rfl, is, second⟩⟩
    exact ⟨token, middle, first, (fits token).mp is, second⟩
  · rintro ⟨token, middle, first, is, second⟩
    exact ⟨token :: middle, first, .cons ((fits token).mpr is) second⟩

theorem spells_iff_takes {expr : Expr} {tokens : List Token} :
    Spells expr tokens ↔ Takes expr.pieces tokens [] := by
  unfold Spells
  induction expr.pieces generalizing tokens with
  | nil => simp [Takes]
  | cons piece pieces ih =>
    simp only [List.forall₂_cons_left_iff, Takes, ih]
    constructor
    · rintro ⟨token, after, fits, rest, rfl⟩
      exact ⟨token, after, rfl, fits, rest⟩
    · rintro ⟨token, after, rfl, fits, rest⟩
      exact ⟨token, after, fits, rest, rfl⟩

/-! ## Plain expressions -/

/-- Expressions made of names, literals, operators, calls and accesses. A sequence stands
only directly between parentheses or brackets. -/
inductive Expr.Plain : (bracketed : Bool) → Expr → Prop
  | number {b : Bool} (value : Float) : Plain b (.number value)
  | string {b : Bool} (text : String) : Plain b (.string text)
  | boolean {b : Bool} (value : Bool) : Plain b (.boolean value)
  | null {b : Bool} : Plain b .null
  | identifier {b : Bool} (name : String) : Plain b (.identifier name)
  | this {b : Bool} : Plain b .this
  | parenthesized {b : Bool} {inner : Expr} : Plain true inner → Plain b (.parenthesized inner)
  | sequence {members : List Expr} : 2 ≤ members.length →
      (∀ member ∈ members, Plain false member) → Plain true (.sequence members)
  | unary {b : Bool} {op : UnaryOp} {operand : Expr} : Plain false operand →
      Plain b (.unary op operand)
  | update {b : Bool} {op : UpdateOp} {side : UpdateSide} {target : Expr} :
      Plain false target → Plain b (.update op side target)
  | binary {b : Bool} {op : BinaryOp} {left right : Expr} : Plain false left →
      Plain false right → Plain b (.binary op left right)
  | conditional {b : Bool} {test consequent alternate : Expr} : Plain false test →
      Plain false consequent → Plain false alternate →
      Plain b (.conditional test consequent alternate)
  | assign {b : Bool} {target value : Expr} : Plain false target → Plain false value →
      Plain b (.assign target value)
  | assignWith {b : Bool} {op : BinaryOp} {target value : Expr} : Plain false target →
      Plain false value → Plain b (.assignWith op target value)
  | call {b : Bool} {callee : Expr} {arguments : List Argument} : Plain false callee →
      (∀ argument ∈ arguments, Plain false argument.expr) → Plain b (.call callee arguments)
  | member {b : Bool} {owner : Expr} {property : String} : Plain false owner →
      Plain b (.member owner property)
  | index {b : Bool} {owner key : Expr} : Plain false owner → Plain true key →
      Plain b (.index owner key)
  | optionalMember {b : Bool} {owner : Expr} {property : String} : Plain false owner →
      Plain b (.optional owner (.member property))
  | optionalIndex {b : Bool} {owner key : Expr} : Plain false owner → Plain true key →
      Plain b (.optional owner (.index key))
  | optionalCall {b : Bool} {owner : Expr} {arguments : List Argument} : Plain false owner →
      (∀ argument ∈ arguments, Plain false argument.expr) →
      Plain b (.optional owner (.call arguments))

end Scriptlet
