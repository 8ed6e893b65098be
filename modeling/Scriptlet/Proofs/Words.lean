import Scriptlet.Eval.Operator
import Scriptlet.Proofs.Numbers.Exact

/-!
# Words of 32 bits

A number is made a word by operations of binary64: its integer part, a remainder, a sum where that
is negative, and a conversion that saturates. None of them rounds, so the word is the integer part
modulo `2 ^ 32`, however large the number is. The operators on words therefore work on the residues
of their operands, and their results are integers that are again numbers.

* `toNat_toWord`, `toInt_toSignedWord`: what the words of a number are;
* `binary_eq_onResidues`: what the operators make of residues.
-/

namespace Scriptlet
namespace Number

/-! ## Residues -/

/-- The integer part of a number, zero if the number is not finite. -/
def integerPart (x : Float) : ℤ :=
  ((value? x).map truncate).getD 0

/-- The integer part of a number modulo `2 ^ 32`. -/
def residue (x : Float) : ℕ :=
  (integerPart x % 2 ^ 32).toNat

/-- The integers that a signed word has room for. -/
def signedRange : Set ℤ := Set.Ico (-2 ^ 31) (2 ^ 31)

/-- The integers that a word has room for. -/
def unsignedRange : Set ℤ := Set.Ico 0 (2 ^ 32)

/-- The integer of a signed word that is congruent to a value modulo `2 ^ 32`. -/
def balanced (value : ℤ) : ℤ :=
  value.bmod (2 ^ 32)

theorem balanced_modEq (value : ℤ) : balanced value ≡ value [ZMOD 2 ^ 32] :=
  Int.bmod_emod

theorem balanced_emod (value : ℤ) : balanced (value % 2 ^ 32) = balanced value :=
  Int.emod_bmod value (2 ^ 32)

theorem balanced_natCast_mod (value : ℕ) : balanced (value % 2 ^ 32 : ℕ) = balanced value := by
  rw [Int.natCast_emod]
  exact balanced_emod value

theorem balanced_mem (value : ℤ) : balanced value ∈ signedRange :=
  ⟨Int.le_bmod (by norm_num), Int.bmod_lt (by norm_num)⟩

theorem neg_balanced_sub_one_mem (value : ℤ) : -balanced value - 1 ∈ signedRange := by
  obtain ⟨low, high⟩ := balanced_mem value
  exact ⟨by omega, by omega⟩

theorem balanced_of_mem {value : ℤ} (member : value ∈ signedRange) : balanced value = value := by
  obtain ⟨low, high⟩ := member
  exact Int.bmod_eq_of_le (by norm_num; omega) (by norm_num; omega)

/-! ## The words of a number -/

variable {x : Float}

/-- The word of a number is its integer part modulo `2 ^ 32`. -/
theorem toNat_toWord (x : Float) : ((toWord x).toNat : ℤ) = integerPart x % 2 ^ 32 := by
  rw [toWord, isFinite_eq, integerPart]
  cases isValue : value? x with
  | none => rfl
  | some value =>
    have reduced := toNat_toUInt32 (value?_euclideanRemainder (value?_trunc isValue))
    rw [truncate_intCast] at reduced
    rw [Option.isSome_some, if_pos rfl, reduced, Option.map_some, Option.getD_some]
    omega

theorem toNat_toWord_eq_residue (x : Float) : (toWord x).toNat = residue x := by
  rw [residue, ← toNat_toWord, Int.toNat_natCast]

theorem toInt_toInt32 (word : UInt32) : word.toInt32.toInt = balanced word.toNat :=
  BitVec.toInt_eq_toNat_bmod word.toBitVec

theorem toInt_toSignedWord (x : Float) : (toSignedWord x).toInt = balanced (integerPart x) := by
  rw [toSignedWord, toInt_toInt32, toNat_toWord, balanced_emod]

/-- Integers with at most 53 places are numbers. -/
theorem value?_ofInt {value : ℤ} (small : value.natAbs < 2 ^ 53) :
    value? (ofInt value) = some (value : ℚ) := by
  rw [ofInt, value?_ofMagnitude_nearestBits _ small, signed, Option.some.injEq,
    ← Int.cast_natCast, ← Int.cast_neg, ← apply_ite Int.cast]
  congr 1
  split
  · next negative =>
    have negative := of_decide_eq_true negative
    omega
  · next nonneg =>
    rw [decide_eq_true_eq] at nonneg
    omega

/-! ## Shifts -/

theorem toNat_count (word : UInt32) : (word &&& 31).toNat = word.toNat % 32 := by
  rw [UInt32.toNat_and]
  exact Nat.and_two_pow_sub_one_eq_mod _ 5

theorem toInt_shiftRight (word : Int32) {count : UInt32} (small : count.toNat < 32) :
    (word >>> count.toInt32).toInt = word.toInt / 2 ^ count.toNat := by
  have all : ∀ count : Fin 32, ((BitVec.ofNat 32 count).smod 32).toNat = count := by decide
  have isCount : (count.toBitVec.smod 32).toNat = count.toNat := by
    have same : count.toBitVec = BitVec.ofNat 32 count.toNat := by simp
    rw [same]
    exact all ⟨count.toNat, small⟩
  calc (word >>> count.toInt32).toInt
      = (word.toBitVec.sshiftRight (count.toBitVec.smod 32).toNat).toInt := rfl
    _ = word.toInt / 2 ^ count.toNat := by
      rw [isCount, BitVec.toInt_sshiftRight, Int.shiftRight_eq_div_pow]
      rfl

theorem ediv_mem {value : ℤ} (member : value ∈ signedRange) (count : ℕ) :
    value / 2 ^ count ∈ signedRange := by
  obtain ⟨low, high⟩ := member
  have one_le : (1 : ℤ) ≤ 2 ^ count := one_le_pow₀ (by norm_num)
  exact ⟨Int.le_ediv_of_mul_le (by positivity) (by nlinarith),
    Int.ediv_lt_of_lt_mul (by positivity) (by nlinarith)⟩

end Number

open Number

/-! ## Operators -/

/-- The residue of the number that an operator on words takes a value for. Numbers, booleans,
null and undefined have one. -/
def Value.residue? : Value → Option ℕ
  | .number x => some (residue x)
  | .boolean value => some value.toNat
  | .null | .undefined => some 0
  | _ => none

/-- What the operators on words make of the residues of their operands. -/
def BinaryOp.onResidues? : BinaryOp → Option (ℕ → ℕ → ℤ)
  | .bitAnd => some fun left right => balanced (left &&& right : ℕ)
  | .bitOr => some fun left right => balanced (left ||| right : ℕ)
  | .bitXor => some fun left right => balanced (left ^^^ right : ℕ)
  | .shiftLeft => some fun left count => balanced (left * 2 ^ (count % 32) : ℕ)
  | .shiftRight => some fun left count => balanced left / 2 ^ (count % 32)
  | .unsignedShiftRight => some fun left count => (left / 2 ^ (count % 32) : ℕ)
  | _ => none

/-- The integers that an operator on words can give. -/
def BinaryOp.wordRange (op : BinaryOp) : Set ℤ :=
  if op = .unsignedShiftRight then unsignedRange else signedRange

/-- What an operator on words takes of the residue of its right operand: the count of a shift is
taken modulo 32. -/
def BinaryOp.rightResidue (op : BinaryOp) (residue : ℕ) : ℕ :=
  if op ∈ [.shiftLeft, .shiftRight, .unsignedShiftRight] then residue % 32 else residue

namespace Value

variable {operand left right : Value} {x y : Float} {rest : ℕ}

theorem exists_toNumber (isResidue : operand.residue? = some rest) :
    ∃ x, operand.toNumber = .ok x ∧ (toWord x).toNat = rest := by
  cases operand with
  | number x =>
    cases isResidue
    exact ⟨x, rfl, toNat_toWord_eq_residue x⟩
  | boolean value =>
    cases isResidue
    refine ⟨_, rfl, ?_⟩
    cases value <;> decide +kernel
  | null | undefined =>
    cases isResidue
    exact ⟨_, rfl, by decide +kernel⟩
  | string | object | array | function => cases isResidue

theorem residue?_lt (isResidue : operand.residue? = some rest) : rest < 2 ^ 32 := by
  obtain ⟨x, -, rfl⟩ := exists_toNumber isResidue
  exact (toWord x).toNat_lt

theorem bitwise_eq (isLeft : left.toNumber = .ok x) (isRight : right.toNumber = .ok y)
    (operation : UInt32 → UInt32 → UInt32) :
    left.bitwise operation right =
      .ok (.number (ofInt (balanced (operation (toWord x) (toWord y)).toNat))) := by
  rw [bitwise, isLeft, isRight, ← toInt_toInt32]
  rfl

theorem shift_eq (isLeft : left.toNumber = .ok x) (isRight : right.toNumber = .ok y)
    (operation : Float → UInt32 → Value) :
    left.shift operation right = .ok (operation x (toWord y &&& 31)) := by
  rw [shift, isLeft, isRight]
  rfl

theorem bitNot_eq (isResidue : operand.residue? = some rest) :
    operand.unary .bitNot = .ok (.number (ofInt (-balanced rest - 1))) := by
  obtain ⟨x, isNumber, rfl⟩ := exists_toNumber isResidue
  have flipped : (~~~(toSignedWord x)).toInt = -balanced (toWord x).toNat - 1 := by
    rw [Int32.toInt_not, toSignedWord, toInt_toInt32]
    exact balanced_of_mem (neg_balanced_sub_one_mem _)
  rw [unary, isNumber, ← flipped]
  rfl

end Value

variable {op : BinaryOp} {operation : ℕ → ℕ → ℤ} {left right : Value} {a b : ℕ}

/-- An operator on words works on the residues of its operands. -/
theorem Store.binary_eq_onResidues (store : Store) (isOperation : op.onResidues? = some operation)
    (leftResidue : left.residue? = some a) (rightResidue : right.residue? = some b) :
    store.binary op left right = .ok (.number (ofInt (operation a b))) := by
  obtain ⟨x, isLeft, rfl⟩ := Value.exists_toNumber leftResidue
  obtain ⟨y, isRight, rfl⟩ := Value.exists_toNumber rightResidue
  have count := toNat_count (toWord y)
  cases op with
  | bitAnd =>
    obtain rfl := Option.some.inj isOperation
    rw [binary, Value.bitwise_eq isLeft isRight, UInt32.toNat_and]
  | bitOr =>
    obtain rfl := Option.some.inj isOperation
    rw [binary, Value.bitwise_eq isLeft isRight, UInt32.toNat_or]
  | bitXor =>
    obtain rfl := Option.some.inj isOperation
    rw [binary, Value.bitwise_eq isLeft isRight, UInt32.toNat_xor]
  | shiftLeft =>
    obtain rfl := Option.some.inj isOperation
    rw [binary, Value.shift_eq isLeft isRight, Value.ofSignedWord, toInt_toInt32,
      UInt32.toNat_shiftLeft, count, Nat.mod_mod, Nat.shiftLeft_eq, balanced_natCast_mod]
  | shiftRight =>
    obtain rfl := Option.some.inj isOperation
    rw [binary, Value.shift_eq isLeft isRight, Value.ofSignedWord,
      toInt_shiftRight _ (by omega), count, toSignedWord, toInt_toInt32]
  | unsignedShiftRight =>
    obtain rfl := Option.some.inj isOperation
    rw [binary, Value.shift_eq isLeft isRight, Value.ofWord, UInt32.toNat_shiftRight, count,
      Nat.mod_mod, Nat.shiftRight_eq_div_pow]
    rfl
  | _ => cases isOperation

theorem BinaryOp.onResidues?_mem (isOperation : op.onResidues? = some operation)
    (below : a < 2 ^ 32) (b : ℕ) : operation a b ∈ op.wordRange := by
  cases op with
  | bitAnd | bitOr | bitXor | shiftLeft =>
    obtain rfl := Option.some.inj isOperation
    exact balanced_mem _
  | shiftRight =>
    obtain rfl := Option.some.inj isOperation
    exact ediv_mem (balanced_mem a) (b % 32)
  | unsignedShiftRight =>
    obtain rfl := Option.some.inj isOperation
    have smaller : a / 2 ^ (b % 32) ≤ a := Nat.div_le_self _ _
    exact ⟨Int.natCast_nonneg _, by dsimp only; omega⟩
  | _ => cases isOperation

theorem BinaryOp.onResidues?_congr (isOperation : op.onResidues? = some operation) {b' : ℕ}
    (same : op.rightResidue b = op.rightResidue b') (a : ℕ) : operation a b = operation a b' := by
  cases op with
  | bitAnd | bitOr | bitXor | shiftLeft | shiftRight | unsignedShiftRight =>
    obtain rfl := Option.some.inj isOperation
    simp [BinaryOp.rightResidue] at same
    simp [same]
  | _ => cases isOperation

/-! ## Conversions and operators together -/

/-- What the conversions to words make of a number. -/
structure Reduces (x : Float) : Prop where
  /-- A finite number is reduced from its integer part. -/
  word : ∀ value, value? x = some value → ((toWord x).toNat : ℤ) = truncate value % 2 ^ 32
  /-- The signed word is congruent to it. -/
  signedWord : ∀ value, value? x = some value →
    (toSignedWord x).toInt ≡ truncate value [ZMOD 2 ^ 32]
  /-- Other numbers give zero. -/
  notFinite : value? x = none → toWord x = 0 ∧ toSignedWord x = 0
  range : ((toWord x).toNat : ℤ) ∈ unsignedRange ∧ (toSignedWord x).toInt ∈ signedRange

/-- What the operators on words make of operands that have residues. -/
structure OperatesOnResidues (store : Store) : Prop where
  /-- The result is an integer of the operator's range. -/
  binary : ∀ op operation left right a b, op.onResidues? = some operation →
    left.residue? = some a → right.residue? = some b →
    ∃ z, store.binary op left right = .ok (.number z) ∧
      value? z = some (operation a b : ℚ) ∧ operation a b ∈ op.wordRange
  bitNot : ∀ (operand : Value) rest, operand.residue? = some rest →
    ∃ z, operand.unary .bitNot = .ok (.number z) ∧
      value? z = some ((-balanced rest - 1 : ℤ) : ℚ) ∧ -balanced rest - 1 ∈ signedRange
  /-- Operands with the same residues, or counts that are the same modulo 32, give the same. -/
  binary_alike : ∀ op left left' right right' a b b', op.onResidues?.isSome →
    left.residue? = some a → left'.residue? = some a →
    right.residue? = some b → right'.residue? = some b' →
    op.rightResidue b = op.rightResidue b' →
    store.binary op left right = store.binary op left' right'
  bitNot_alike : ∀ operand operand' : Value, operand.residue?.isSome →
    operand.residue? = operand'.residue? → operand.unary .bitNot = operand'.unary .bitNot

theorem toWord_of_value?_eq_none {x : Float} (notFinite : value? x = none) : toWord x = 0 := by
  have isZero : ((toWord x).toNat : ℤ) = 0 := by
    rw [toNat_toWord, integerPart, notFinite]
    rfl
  exact UInt32.toNat_inj.mp (by exact_mod_cast isZero)

theorem reduces (x : Float) : Reduces x where
  word value isValue := by rw [toNat_toWord, integerPart, isValue]; rfl
  signedWord value isValue := by
    rw [toInt_toSignedWord, integerPart, isValue]
    exact balanced_modEq _
  notFinite notFinite := by
    have isZero := toWord_of_value?_eq_none notFinite
    exact ⟨isZero, by rw [toSignedWord, isZero]; rfl⟩
  range := by
    have below := (toWord x).toNat_lt
    refine ⟨⟨Int.natCast_nonneg _, by omega⟩, ?_⟩
    rw [toInt_toSignedWord]
    exact balanced_mem _

theorem natAbs_lt_of_mem {value : ℤ} (member : value ∈ signedRange ∨ value ∈ unsignedRange) :
    value.natAbs < 2 ^ 53 := by
  rcases member with ⟨low, high⟩ | ⟨low, high⟩ <;> omega

theorem Store.operatesOnResidues (store : Store) : OperatesOnResidues store where
  binary op operation left right a b isOperation leftResidue rightResidue := by
    have member := op.onResidues?_mem isOperation (Value.residue?_lt leftResidue) b
    refine ⟨_, store.binary_eq_onResidues isOperation leftResidue rightResidue, ?_, member⟩
    refine value?_ofInt (natAbs_lt_of_mem ?_)
    rw [BinaryOp.wordRange] at member
    split at member
    · exact .inr member
    · exact .inl member
  bitNot operand rest isResidue := by
    have member := neg_balanced_sub_one_mem rest
    exact ⟨_, Value.bitNot_eq isResidue, value?_ofInt (natAbs_lt_of_mem (.inl member)), member⟩
  binary_alike op left left' right right' a b b' isSome leftResidue leftResidue' rightResidue
      rightResidue' same := by
    obtain ⟨operation, isOperation⟩ := Option.isSome_iff_exists.mp isSome
    rw [store.binary_eq_onResidues isOperation leftResidue rightResidue,
      store.binary_eq_onResidues isOperation leftResidue' rightResidue',
      op.onResidues?_congr isOperation same]
  bitNot_alike operand operand' isSome same := by
    obtain ⟨rest, isResidue⟩ := Option.isSome_iff_exists.mp isSome
    rw [Value.bitNot_eq isResidue, Value.bitNot_eq (same.symm.trans isResidue)]

/-- Conversion to 32 bits is reduction modulo `2 ^ 32`, exact for every finite number, and the
operators on words see nothing of their operands but the residues. -/
theorem words_are_residues :
    (∀ x, Reduces x) ∧ ∀ store : Store, OperatesOnResidues store :=
  ⟨reduces, Store.operatesOnResidues⟩

/-- Minus 1.9, `2 ^ 32 + 5` and `2 ^ 31`, and the largest of all numbers. -/
example :
    (toSignedWord (Float.ofBits 0xBFFE666666666666)).toInt = -1 ∧
      (toSignedWord (Float.ofBits 0x41F0000000500000)).toInt = 5 ∧
      (toSignedWord (Float.ofBits 0x41E0000000000000)).toInt = -2147483648 ∧
      (toWord (Float.ofBits 0x7FEFFFFFFFFFFFFF)).toNat = 0 := by
  decide +kernel

end Scriptlet
