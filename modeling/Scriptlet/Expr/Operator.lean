import Scriptlet.Token

/-!
# Operators

The operators of expressions: how they are written, which tokens stand for them, and how
strongly they bind. An operator with the powers `(left, right)` takes an operand on its
left from an expression that asks for at least `left`, and asks for `right` on its right:
it groups to the left when `left < right` and to the right when `right < left`.
-/

namespace Scriptlet

/-- An operator before its operand. -/
inductive UnaryOp where
  | delete
  | void
  | typeof
  | plus
  | minus
  | bitNot
  | not
  | await
  deriving Repr, DecidableEq

/-- An operator that changes a variable or property by one. -/
inductive UpdateOp where
  | increment
  | decrement
  deriving Repr, DecidableEq

/-- Where the operator of an update stands: its value is the new or the old one. -/
inductive UpdateSide where
  | before
  | after
  deriving Repr, DecidableEq

/-- An operator between two operands that only takes their values. -/
inductive BinaryOp where
  | logicalOr
  | logicalAnd
  | bitOr
  | bitXor
  | bitAnd
  | equal
  | notEqual
  | strictEqual
  | strictNotEqual
  | in_
  | instanceof
  | lessThan
  | lessThanEqual
  | greaterThan
  | greaterThanEqual
  | shiftLeft
  | shiftRight
  | unsignedShiftRight
  | coalesce
  | add
  | subtract
  | multiply
  | divide
  | remainder
  | power
  deriving Repr, DecidableEq

/-- What a token between two expressions does with them. -/
inductive Operation where
  | assign
  | assignWith (op : BinaryOp)
  | binary (op : BinaryOp)
  deriving Repr, DecidableEq

/-! ## Spelling -/

def UnaryOp.spelling : UnaryOp → String
  | .delete => "delete"
  | .void => "void"
  | .typeof => "typeof"
  | .plus => "+"
  | .minus => "-"
  | .bitNot => "~"
  | .not => "!"
  | .await => "await"

def UpdateOp.spelling : UpdateOp → String
  | .increment => "++"
  | .decrement => "--"

def BinaryOp.spelling : BinaryOp → String
  | .logicalOr => "||"
  | .logicalAnd => "&&"
  | .bitOr => "|"
  | .bitXor => "^"
  | .bitAnd => "&"
  | .equal => "=="
  | .notEqual => "!="
  | .strictEqual => "==="
  | .strictNotEqual => "!=="
  | .in_ => "in"
  | .instanceof => "instanceof"
  | .lessThan => "<"
  | .lessThanEqual => "<="
  | .greaterThan => ">"
  | .greaterThanEqual => ">="
  | .shiftLeft => "<<"
  | .shiftRight => ">>"
  | .unsignedShiftRight => ">>>"
  | .coalesce => "??"
  | .add => "+"
  | .subtract => "-"
  | .multiply => "*"
  | .divide => "/"
  | .remainder => "%"
  | .power => "**"

/-! ## Tokens -/

/-- The operator that a token stands for in front of an operand. -/
def Kind.unary? : Kind → Option UnaryOp
  | .keyword .delete => some .delete
  | .keyword .void => some .void
  | .keyword .typeof => some .typeof
  | .keyword .await => some .await
  | .symbol .plus => some .plus
  | .symbol .minus => some .minus
  | .symbol .tilde => some .bitNot
  | .symbol .bang => some .not
  | _ => none

/-- The operator that a symbol stands for, by itself or joined with an assignment. -/
def Symbol.binary? : Symbol → Option BinaryOp
  | .pipePipe => some .logicalOr
  | .ampersandAmpersand => some .logicalAnd
  | .pipe | .pipeEquals => some .bitOr
  | .caret | .caretEquals => some .bitXor
  | .ampersand | .ampersandEquals => some .bitAnd
  | .equalsEquals => some .equal
  | .bangEquals => some .notEqual
  | .equalsEqualsEquals => some .strictEqual
  | .bangEqualsEquals => some .strictNotEqual
  | .lessThan => some .lessThan
  | .lessThanEquals => some .lessThanEqual
  | .greaterThan => some .greaterThan
  | .greaterThanEquals => some .greaterThanEqual
  | .shiftLeft | .shiftLeftEquals => some .shiftLeft
  | .shiftRight | .shiftRightEquals => some .shiftRight
  | .unsignedShiftRight | .unsignedShiftRightEquals => some .unsignedShiftRight
  | .questionQuestion | .questionQuestionEquals => some .coalesce
  | .plus | .plusEquals => some .add
  | .minus | .minusEquals => some .subtract
  | .asterisk | .asteriskEquals => some .multiply
  | .slash | .slashEquals => some .divide
  | .percent | .percentEquals => some .remainder
  | .asteriskAsterisk | .asteriskAsteriskEquals => some .power
  | _ => none

/-- The operator that a token stands for, by itself or joined with an assignment. -/
def Kind.binary? : Kind → Option BinaryOp
  | .symbol mark => mark.binary?
  | .keyword .in_ => some .in_
  | .keyword .instanceof => some .instanceof
  | _ => none

/-- Whether a symbol assigns to the operand before it. -/
def Symbol.assigns : Symbol → Bool
  | .equals | .plusEquals | .minusEquals | .asteriskEquals | .slashEquals | .percentEquals
  | .asteriskAsteriskEquals | .shiftLeftEquals | .shiftRightEquals
  | .unsignedShiftRightEquals | .ampersandEquals | .caretEquals | .pipeEquals
  | .questionQuestionEquals => true
  | _ => false

/-- Whether a token assigns to the operand before it. -/
def Kind.assigns : Kind → Bool
  | .symbol mark => mark.assigns
  | _ => false

/-- The operation that a token stands for between two operands. -/
def Kind.operation? (kind : Kind) : Option Operation :=
  if kind = .symbol .equals then some .assign
  else kind.binary?.map fun op => if kind.assigns then .assignWith op else .binary op

/-! ## Binding powers -/

/-- The left and right power of a binary operator. -/
def BinaryOp.powers : BinaryOp → Nat × Nat
  | .logicalOr => (5, 6)
  | .logicalAnd => (7, 8)
  | .bitOr => (9, 10)
  | .bitXor => (11, 12)
  | .bitAnd => (13, 14)
  | .equal | .notEqual | .strictEqual | .strictNotEqual => (15, 16)
  | .in_ => (17, 18)
  | .instanceof => (19, 20)
  | .lessThan | .lessThanEqual | .greaterThan | .greaterThanEqual => (21, 22)
  | .shiftLeft | .shiftRight | .unsignedShiftRight => (23, 24)
  | .coalesce => (25, 26)
  | .add | .subtract => (27, 28)
  | .multiply | .divide | .remainder => (29, 30)
  | .power => (32, 31)

/-- The left and right power of every assignment, which binds the least. -/
def assignmentPowers : Nat × Nat := (2, 1)

/-- The left and right power of a token between two operands. -/
def Kind.powers? (kind : Kind) : Option (Nat × Nat) :=
  if kind.assigns then some assignmentPowers else kind.binary?.map BinaryOp.powers

namespace Operation

/-- The left and right power of an operation. -/
def powers : Operation → Nat × Nat
  | .assign | .assignWith _ => assignmentPowers
  | .binary op => op.powers

/-- Whether the left operand is changed, so that it has to be a target. -/
def assigns : Operation → Bool
  | .assign | .assignWith _ => true
  | .binary _ => false

/-- The operator that computes a value from both operands. -/
def operator? : Operation → Option BinaryOp
  | .assign => none
  | .assignWith op | .binary op => some op

end Operation

/-- Left power of a conditional: its condition binds more than an assignment. -/
def conditionalPower : Nat := 4

/-- The least power of the last branch of a conditional: it may be an assignment. -/
def alternatePower : Nat := 1

/-- Power of an operator after its operand. -/
def updatePower : Nat := 33

/-- The least power of the operand of an operator in front of it. -/
def operandPower : Nat := 33

/-- Power of calls and of accesses to properties. -/
def accessPower : Nat := 35

end Scriptlet
