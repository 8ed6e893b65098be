import Scriptlet.Number.Arithmetic
import Scriptlet.Proofs.Numbers.Values

/-!
# Operations that need no rounding

What operations of binary64 do to exact values. Comparison, integer part, remainder and conversion
to a word are exact on all finite numbers, a sum is exact if it is a number.

* `compare_unpack`, `value?_trunc`, `value?_remainder`, `toNat_toUInt32`: by their values;
* `add_eq`: a sum that is a number is that number.
-/

namespace Scriptlet
namespace Number

open Float.Model
open Float.Model.UnpackedFloat (ExtendedMantissa Sign)

variable {x y z : Float} {a b : ℚ} {mantissa mantissa' : ℕ} {exponent exponent' : ℤ}

/-- What the model says of a finite number. -/
theorem unpack_of_value? (isValue : value? x = some a) :
    (a = 0 ∧ ∃ sign, x.toModel.unpack = .zero sign) ∨
      ∃ negative mantissa exponent pos, Representable mantissa exponent ∧
        a = signed negative (mantissa * 2 ^ exponent) ∧
        x.toModel.unpack = .finite (signOf negative) mantissa exponent pos := by
  obtain ⟨negative, mantissa, exponent, shape⟩ := isFinite_of_value? isValue
  have isNumber := representable_of_parts shape
  rw [value?_of_parts shape, Option.some.injEq] at isValue
  rw [unpack_eq_parts, shape, Parts.unpacked]
  by_cases pos : 0 < mantissa
  · rw [dif_pos pos]
    exact .inr ⟨negative, mantissa, exponent, pos, isNumber, isValue.symm, rfl⟩
  · obtain rfl : mantissa = 0 := by omega
    rw [dif_neg pos]
    refine .inl ⟨?_, _, rfl⟩
    cases negative <;> simpa [signed] using isValue.symm

/-! ## Comparison -/

theorem Representable.lt_of_exponent_lt (isNumber : Representable mantissa exponent)
    (isNumber' : Representable mantissa' exponent') (lt : exponent < exponent') :
    (mantissa : ℚ) * 2 ^ exponent < mantissa' * 2 ^ exponent' := by
  have below : (mantissa : ℚ) < 2 ^ 53 := by exact_mod_cast isNumber.below
  have full : (2 ^ 52 : ℚ) ≤ mantissa' := by
    rcases isNumber'.full with full | smallest
    · exact_mod_cast full
    · have := isNumber.smallest
      omega
  calc (mantissa : ℚ) * 2 ^ exponent < 2 ^ 53 * 2 ^ exponent := by gcongr
    _ = 2 ^ (exponent + 53) := by rw [mul_comm, zpow_mul_pow]; rfl
    _ ≤ 2 ^ (exponent' + 52) := zpow_le_zpow_right₀ one_le_two (by omega)
    _ = 2 ^ 52 * 2 ^ exponent' := by rw [mul_comm, zpow_mul_pow]; rfl
    _ ≤ mantissa' * 2 ^ exponent' := by gcongr

/-- Numbers are compared by their exponents first. -/
theorem Representable.compare_eq (isNumber : Representable mantissa exponent)
    (isNumber' : Representable mantissa' exponent') :
    compare ((mantissa : ℚ) * 2 ^ exponent) (mantissa' * 2 ^ exponent') =
      (compare exponent exponent').then (compare mantissa mantissa') := by
  rcases lt_trichotomy exponent exponent' with lt | rfl | gt
  · rw [compare_lt_iff_lt.mpr lt, compare_lt_iff_lt.mpr (isNumber.lt_of_exponent_lt isNumber' lt)]
    rfl
  · have pos : (0 : ℚ) < 2 ^ exponent := by positivity
    rw [compare_eq_iff_eq.mpr rfl, Ordering.then]
    rcases lt_trichotomy mantissa mantissa' with lt | rfl | gt
    · rw [compare_lt_iff_lt.mpr lt, compare_lt_iff_lt, mul_lt_mul_iff_left₀ pos]
      exact_mod_cast lt
    · exact (compare_eq_iff_eq.mpr rfl).trans (compare_eq_iff_eq.mpr rfl).symm
    · rw [compare_gt_iff_gt.mpr gt, compare_gt_iff_gt]
      refine (mul_lt_mul_iff_left₀ pos).mpr ?_
      exact_mod_cast gt
  · rw [compare_gt_iff_gt.mpr gt, compare_gt_iff_gt.mpr (isNumber'.lt_of_exponent_lt isNumber gt)]
    rfl

theorem compare_neg_neg (a b : ℚ) : compare (-a) (-b) = (compare a b).swap := by
  rcases lt_trichotomy a b with lt | rfl | gt
  · rw [compare_lt_iff_lt.mpr lt, compare_gt_iff_gt.mpr (neg_lt_neg lt)]
    rfl
  · rw [compare_eq_iff_eq.mpr rfl, compare_eq_iff_eq.mpr rfl]
    rfl
  · rw [compare_gt_iff_gt.mpr gt, compare_lt_iff_lt.mpr (neg_lt_neg gt)]
    rfl

/-- Finite numbers are compared by their values. -/
theorem compare_unpack (isLeft : value? x = some a) (isRight : value? y = some b) :
    x.toModel.unpack.compare y.toModel.unpack = some (compare a b) := by
  rcases unpack_of_value? isLeft with
      ⟨rfl, sign, left⟩ | ⟨negative, mantissa, exponent, pos, isNumber, rfl, left⟩ <;>
    rcases unpack_of_value? isRight with
      ⟨rfl, sign', right⟩ | ⟨negative', mantissa', exponent', pos', isNumber', rfl, right⟩ <;>
    rw [left, right]
  · rfl
  · have size : (0 : ℚ) < mantissa' * 2 ^ exponent' := by positivity
    cases negative'
    · exact congrArg some (compare_lt_iff_lt.mpr size).symm
    · exact congrArg some (compare_gt_iff_gt.mpr (neg_lt_zero.mpr size)).symm
  · have size : (0 : ℚ) < mantissa * 2 ^ exponent := by positivity
    cases negative
    · exact congrArg some (compare_gt_iff_gt.mpr size).symm
    · exact congrArg some (compare_lt_iff_lt.mpr (neg_lt_zero.mpr size)).symm
  · have size : (0 : ℚ) < mantissa * 2 ^ exponent := by positivity
    have size' : (0 : ℚ) < mantissa' * 2 ^ exponent' := by positivity
    have sizes := isNumber.compare_eq isNumber'
    cases negative <;> cases negative'
    · exact congrArg some sizes.symm
    · exact congrArg some (compare_gt_iff_gt.mpr (by simp only [signed]; simp; linarith)).symm
    · exact congrArg some (compare_lt_iff_lt.mpr (by simp only [signed]; simp; linarith)).symm
    · refine congrArg some ?_
      simp only [signed, if_true]
      rw [compare_neg_neg, sizes]

theorem le_iff (isLeft : value? x = some a) (isRight : value? y = some b) : x ≤ y ↔ a ≤ b := by
  show (decide ((x.toModel.unpack.compare y.toModel.unpack).any (·.isLE) = true)) = true ↔ a ≤ b
  rw [compare_unpack isLeft isRight, ← compare_le_iff_le]
  cases compare a b <;> simp

theorem lt_iff (isLeft : value? x = some a) (isRight : value? y = some b) : x < y ↔ a < b := by
  show (decide ((x.toModel.unpack.compare y.toModel.unpack == some .lt) = true)) = true ↔ a < b
  rw [compare_unpack isLeft isRight, ← compare_lt_iff_lt]
  simp

/-! ## Sizes -/

/-- The size of a number is its value without the sign. -/
theorem value?_abs {negative : Bool} (shape : parts x = .finite negative mantissa exponent) :
    value? x.abs = some ((mantissa : ℚ) * 2 ^ exponent) := by
  have shape' := parts_ofMagnitude false (representable_of_parts shape)
  have same : x.toModel.unpack.abs =
      (ofMagnitude false (nearest (mantissa * 2 ^ exponent))).toModel.unpack := by
    rw [unpack_eq_parts, unpack_eq_parts, shape, shape']
    simp only [Parts.unpacked]
    split <;> rfl
  have bits : UnpackedFloat.pack Format.binary64 x.toModel.unpack.abs =
      (ofMagnitude false (nearest (mantissa * 2 ^ exponent))).toModel.toBits.toBitVec := by
    rw [same]
    exact UnpackedFloat.pack_unpack_of_valid (Float.toModel _).valid
  have isAbs : x.abs = ofMagnitude false (nearest (mantissa * 2 ^ exponent)) := by
    rw [← Float.toBits_inj, ← UInt64.toBitVec_inj]
    exact bits
  rw [isAbs, value?_of_parts shape']
  rfl

/-! ## Rounding -/

theorem mantissa_shiftRight (extended : ExtendedMantissa) (places : ℕ) :
    (extended >>> places).mantissa = extended.mantissa / 2 ^ places := by
  induction places with
  | zero => exact (Nat.div_one _).symm
  | succ places ih =>
    show (extended >>> places).mantissa / 2 = _
    rw [ih, Nat.div_div_eq_div_mul, pow_succ]

/-- Nothing is lost where the places that are dropped are zero. -/
theorem shiftRight_exact (mantissa places : ℕ) :
    (⟨mantissa * 2 ^ places, false, false⟩ : ExtendedMantissa) >>> places =
      ⟨mantissa, false, false⟩ := by
  induction places generalizing mantissa with
  | zero => rw [pow_zero, mul_one]; rfl
  | succ places ih =>
    have step := ih (mantissa * 2)
    rw [mul_assoc, ← pow_succ'] at step
    show ((⟨mantissa * 2 ^ (places + 1), false, false⟩ : ExtendedMantissa) >>> places).shiftRightOne
      = _
    rw [step]
    simp [ExtendedMantissa.shiftRightOne]

theorem format_targetExponent {mantissa : ℕ} (pos : 0 < mantissa) (exponent : ℤ) :
    Format.binary64.targetExponent (totalExponent mantissa exponent) =
      lastPlace (mantissa * 2 ^ exponent) := by
  have smallest : Format.binary64.minExponent = -1074 := rfl
  have places : (Format.binary64.mantissaBits : ℤ) = 53 := rfl
  rw [Format.targetExponent, totalExponent, lastPlace, log_scaled pos, smallest, places]
  omega

theorem decreaseExponent_eq (mantissa : ℕ) (exponent target : ℤ) :
    UnpackedFloat.decreaseExponent mantissa exponent target =
      (mantissa * 2 ^ (exponent - target).toNat, min exponent target) := by
  simp only [UnpackedFloat.decreaseExponent, Nat.shiftLeft_eq, Prod.mk.injEq]
  exact ⟨trivial, by omega⟩

/-- A mantissa with trailing zeros is the mantissa of a number with a lower exponent. -/
theorem mantissa_eq_of_value_eq {m : ℕ} {e : ℤ} (le : e ≤ exponent)
    (same : (m : ℚ) * 2 ^ e = mantissa * 2 ^ exponent) :
    m = mantissa * 2 ^ (exponent - e).toNat := by
  have shift : (2 : ℚ) ^ e * 2 ^ (exponent - e).toNat = 2 ^ exponent := zpow_mul_pow (by omega)
  have pos : (0 : ℚ) < 2 ^ e := by positivity
  have cast : (m : ℚ) = (mantissa * 2 ^ (exponent - e).toNat : ℕ) := by
    rw [← shift, mul_comm ((2 : ℚ) ^ e), ← mul_assoc] at same
    rw [Nat.cast_mul, Nat.cast_pow, Nat.cast_ofNat]
    exact mul_right_cancel₀ pos.ne' same
  exact_mod_cast cast

theorem shiftToTargetExponent_eq (isNumber : Representable mantissa exponent) (pos : 0 < mantissa)
    {m : ℕ} {e : ℤ} (le : e ≤ exponent) (same : (m : ℚ) * 2 ^ e = mantissa * 2 ^ exponent) :
    UnpackedFloat.shiftToTargetExponent Format.binary64 m e .exact =
      (⟨mantissa, false, false⟩, exponent) := by
  have isMultiple := mantissa_eq_of_value_eq le same
  have m_pos : 0 < m := by
    rw [isMultiple]
    positivity
  have target : Format.binary64.targetExponent (totalExponent m e) = exponent := by
    rw [format_targetExponent m_pos, same, isNumber.lastPlace_eq pos]
  have exact := shiftRight_exact mantissa (exponent - e).toNat
  rw [← isMultiple] at exact
  simp only [UnpackedFloat.shiftToTargetExponent, UnpackedFloat.shiftToExponent, target,
    ExtendedMantissa.ofMantissaAndAccuracy, exact, Prod.mk.injEq]
  exact ⟨trivial, by omega⟩

/-- A value that is a number is rounded to it. -/
theorem round_eq (isNumber : Representable mantissa exponent) (pos : 0 < mantissa) {m : ℕ} {e : ℤ}
    (same : (m : ℚ) * 2 ^ e = mantissa * 2 ^ exponent) (sign : Sign) :
    UnpackedFloat.round Format.binary64 sign m e = .finite sign mantissa exponent pos := by
  have m_pos : 0 < m := by
    have size : (0 : ℚ) < m * 2 ^ e := by rw [same]; positivity
    exact_mod_cast (pos_iff_pos_of_mul_pos size).mpr (by positivity)
  have target : Format.binary64.targetExponent (totalExponent m e) = exponent := by
    rw [format_targetExponent m_pos, same, isNumber.lastPlace_eq pos]
  have shift : (2 : ℚ) ^ min e exponent * 2 ^ (e - exponent).toNat = 2 ^ e :=
    zpow_mul_pow (by omega)
  have decreased : ((m * 2 ^ (e - exponent).toNat : ℕ) : ℚ) * 2 ^ min e exponent =
      mantissa * 2 ^ exponent := by
    rw [← same, ← shift, Nat.cast_mul, Nat.cast_pow, Nat.cast_ofNat]
    ring
  -- the first shift leaves nothing to round, so that the second one has nothing to do
  have first := shiftToTargetExponent_eq isNumber pos (min_le_right e exponent) decreased
  have second := shiftToTargetExponent_eq isNumber pos le_rfl rfl
  simp only [UnpackedFloat.round, target, decreaseExponent_eq, UnpackedFloat.roundWithAccuracy,
    first, ExtendedMantissa.roundedMantissa, ExtendedMantissa.accuracy,
    UnpackedFloat.Accuracy.roundToNearestEven, second, pos.ne', dite_false]

/-! ## Sums -/

/-- A mantissa that is written out at a lower exponent. -/
theorem signOf_apply_mul (negative : Bool) (mantissa : ℕ) {low exponent : ℤ} (le : low ≤ exponent) :
    ((signOf negative).apply (mantissa * 2 ^ (exponent - low).toNat : ℕ) : ℚ) * 2 ^ low =
      signed negative (mantissa * 2 ^ exponent) := by
  have shift : (2 : ℚ) ^ low * 2 ^ (exponent - low).toNat = 2 ^ exponent := zpow_mul_pow (by omega)
  rw [← shift]
  cases negative <;> simp only [signOf, Sign.apply, signed] <;> push_cast <;> ring

theorem normalize_eq (isNumber : Representable mantissa exponent) (pos : 0 < mantissa)
    {negative : Bool} {m e : ℤ} (same : (m : ℚ) * 2 ^ e = signed negative (mantissa * 2 ^ exponent))
    (zeroSign : Sign) :
    UnpackedFloat.normalize Format.binary64 m e zeroSign =
      .finite (signOf negative) mantissa exponent pos := by
  have scale : (0 : ℚ) < 2 ^ e := by positivity
  have size : (0 : ℚ) < mantissa * 2 ^ exponent := by positivity
  unfold UnpackedFloat.normalize
  cases negative with
  | false =>
    have m_pos : 0 < m := by
      rw [signed, if_neg Bool.false_ne_true] at same
      have : (0 : ℚ) < m * 2 ^ e := by rw [same]; exact size
      exact_mod_cast (pos_iff_pos_of_mul_pos this).mpr scale
    rw [compare_gt_iff_gt.mpr m_pos]
    refine round_eq isNumber pos ?_ _
    rw [← Int.cast_natCast, Int.toNat_of_nonneg m_pos.le]
    exact same
  | true =>
    have m_neg : 0 < -m := by
      rw [signed, if_pos rfl] at same
      have : (0 : ℚ) < (-m : ℤ) * 2 ^ e := by push_cast; linarith
      exact_mod_cast (pos_iff_pos_of_mul_pos this).mpr scale
    rw [compare_lt_iff_lt.mpr (neg_pos.mp m_neg)]
    refine round_eq isNumber pos ?_ _
    rw [← Int.cast_natCast, Int.toNat_of_nonneg m_neg.le, Int.cast_neg, neg_mul, same]
    exact neg_neg _

/-- A sum that is a number is that number, if none of the three is zero. -/
theorem add_eq (isLeft : value? x = some a) (isRight : value? y = some b)
    (isSum : value? z = some (a + b)) (left_ne : a ≠ 0) (right_ne : b ≠ 0) (sum_ne : a + b ≠ 0) :
    x + y = z := by
  obtain ⟨rfl, -⟩ | ⟨negative, mantissa, exponent, pos, isNumber, rfl, left⟩ :=
    unpack_of_value? isLeft
  · exact absurd rfl left_ne
  obtain ⟨rfl, -⟩ | ⟨negative', mantissa', exponent', pos', isNumber', rfl, right⟩ :=
    unpack_of_value? isRight
  · exact absurd rfl right_ne
  obtain ⟨zero, -⟩ | ⟨negative'', mantissa'', exponent'', pos'', isNumber'', same, sum⟩ :=
    unpack_of_value? isSum
  · exact absurd zero sum_ne
  have model : UnpackedFloat.add Format.binary64 x.toModel.unpack y.toModel.unpack =
      z.toModel.unpack := by
    rw [left, right, sum]
    simp only [UnpackedFloat.add, decreaseExponent_eq]
    refine normalize_eq isNumber'' pos'' ?_ _
    rw [← same, Int.cast_add, add_mul, signOf_apply_mul _ _ (min_le_left ..),
      signOf_apply_mul _ _ (min_le_right ..)]
  have bits : UnpackedFloat.pack Format.binary64
      (UnpackedFloat.add Format.binary64 x.toModel.unpack y.toModel.unpack) =
        z.toModel.toBits.toBitVec := by
    rw [model]
    exact UnpackedFloat.pack_unpack_of_valid z.toModel.valid
  rw [← Float.toBits_inj, ← UInt64.toBitVec_inj]
  exact bits

/-! ## Integer parts -/

/-- The integer part of a value, rounded toward zero. -/
def truncate (value : ℚ) : ℤ :=
  if 0 ≤ value then ⌊value⌋ else ⌈value⌉

theorem truncate_intCast (value : ℤ) : truncate value = value := by
  simp [truncate]

theorem truncate_signed {size : ℚ} (nonneg : 0 ≤ size) (negative : Bool) :
    (truncate (signed negative size) : ℚ) = signed negative ⌊size⌋₊ := by
  have whole : (⌊size⌋₊ : ℤ) = ⌊size⌋ := Int.natCast_floor_eq_floor nonneg
  have cast : (⌊size⌋₊ : ℚ) = ⌊size⌋ := by exact_mod_cast congrArg (Int.cast (R := ℚ)) whole
  rw [cast, truncate]
  cases negative with
  | false => exact congrArg Int.cast (if_pos nonneg)
  | true =>
    simp only [signed, if_true]
    split
    · next nonpos =>
      obtain rfl : size = 0 := by linarith
      simp
    · rw [Int.ceil_neg, Int.cast_neg]

theorem floor_scaled_of_nonneg (mantissa : ℕ) (nonneg : 0 ≤ exponent) :
    ⌊(mantissa : ℚ) * 2 ^ exponent⌋₊ = mantissa * 2 ^ exponent.toNat := by
  rw [zpow_of_nonneg 2 nonneg]
  exact_mod_cast Nat.floor_natCast (R := ℚ) _

theorem floor_scaled_of_negative (mantissa : ℕ) (negative : ¬ 0 ≤ exponent) :
    ⌊(mantissa : ℚ) * 2 ^ exponent⌋₊ = mantissa / 2 ^ (-exponent).toNat := by
  rw [zpow_of_negative 2 negative, ← div_eq_mul_inv]
  exact_mod_cast Nat.floor_div_eq_div (K := ℚ) mantissa (2 ^ (-exponent).toNat)

/-- A natural number with at most 53 places, times a power of two, is kept by rounding. -/
theorem value?_ofMagnitude (negative : Bool) {size : ℕ} (small : size < 2 ^ 53) {scale : ℤ}
    (low : -1074 ≤ scale) (high : scale ≤ 971) :
    value? (ofMagnitude negative (nearest (size * 2 ^ scale))) =
      some (signed negative (size * 2 ^ scale)) := by
  obtain ⟨mantissa, exponent, isNumber, -, isValue⟩ := exists_representable_scaled small low high
  rw [← isValue]
  exact value?_of_parts (parts_ofMagnitude negative isNumber)

theorem value?_ofMagnitude_nearestBits (negative : Bool) {size : ℕ} (small : size < 2 ^ 53) :
    value? (ofMagnitude negative (nearestBits size 1)) = some (signed negative size) := by
  have kept := value?_ofMagnitude negative small (show -1074 ≤ (0 : ℤ) by norm_num) (by norm_num)
  rw [zpow_zero, mul_one] at kept
  rw [nearestBits_eq _ one_pos, Nat.cast_one, div_one, kept]

/-- The integer part of a finite number is a number. -/
theorem value?_trunc (isValue : value? x = some a) : value? (trunc x) = some (truncate a : ℚ) := by
  obtain ⟨negative, mantissa, exponent, shape⟩ := isFinite_of_value? isValue
  have isNumber := representable_of_parts shape
  rw [value?_of_parts shape, Option.some.injEq] at isValue
  have nonneg : (0 : ℚ) ≤ mantissa * 2 ^ exponent := by positivity
  rw [trunc, shape, ← isValue, truncate_signed nonneg]
  by_cases whole : 0 ≤ exponent
  · simp only [if_pos whole]
    rw [value?_of_parts shape, floor_scaled_of_nonneg _ whole, zpow_of_nonneg 2 whole]
    push_cast
    rfl
  · simp only [if_neg whole]
    rw [floor_scaled_of_negative _ whole]
    exact value?_ofMagnitude_nearestBits _ ((Nat.div_le_self _ _).trans_lt isNumber.below)

/-! ## Remainders -/

theorem signed_div (negative negative' : Bool) (size size' : ℚ) :
    signed negative size / signed negative' size' =
      signed (negative ^^ negative') (size / size') := by
  cases negative <;> cases negative' <;> simp [signed, neg_div, div_neg]

theorem signed_mul (negative negative' : Bool) (size size' : ℚ) :
    signed negative size * signed negative' size' =
      signed (negative ^^ negative') (size * size') := by
  cases negative <;> cases negative' <;> simp [signed]

theorem signed_sub (negative : Bool) (size size' : ℚ) :
    signed negative size - signed negative size' = signed negative (size - size') := by
  cases negative
  · rfl
  · simp only [signed, if_true]
    ring

/-- The remainder of a division with the quotient rounded toward zero, for sizes. -/
theorem signed_mod (negative negative' : Bool) (size size' : ℕ) {unit : ℚ} (pos : 0 < unit) :
    signed negative ((size % size' : ℕ) * unit) =
      signed negative (size * unit) - signed negative' (size' * unit) *
        truncate (signed negative (size * unit) / signed negative' (size' * unit)) := by
  have split : (size : ℚ) = size' * (size / size' : ℕ) + (size % size' : ℕ) := by
    exact_mod_cast (Nat.div_add_mod size size').symm
  have twice : (negative' ^^ (negative ^^ negative')) = negative := by
    cases negative <;> cases negative' <;> rfl
  rw [signed_div, mul_div_mul_right _ _ pos.ne', truncate_signed (by positivity),
    Nat.floor_div_eq_div, signed_mul, twice, signed_sub]
  congr 1
  rw [split]
  ring

/-- The same value with a lower exponent. -/
theorem scaled_of_le (mantissa : ℕ) {least exponent : ℤ} (le : least ≤ exponent) :
    (mantissa : ℚ) * 2 ^ exponent =
      (mantissa * 2 ^ (exponent - least).toNat : ℕ) * 2 ^ least := by
  rw [← zpow_mul_pow (show least + (exponent - least).toNat = exponent by omega)]
  push_cast
  ring

/-- At the lower one of two exponents, the operand that has it bounds the rest. -/
theorem mod_scaled_lt {mantissa mantissa' : ℕ} {exponent exponent' least : ℤ}
    (isLeast : least = min exponent exponent') (below : mantissa < 2 ^ 53)
    (below' : mantissa' < 2 ^ 53) (pos' : mantissa' ≠ 0) :
    mantissa * 2 ^ (exponent - least).toNat %
      (mantissa' * 2 ^ (exponent' - least).toNat) < 2 ^ 53 := by
  rcases le_total exponent exponent' with le | le
  · have isZero : (exponent - least).toNat = 0 := by omega
    rw [isZero, pow_zero, mul_one]
    exact (Nat.mod_le _ _).trans_lt below
  · have isZero : (exponent' - least).toNat = 0 := by omega
    rw [isZero, pow_zero, mul_one]
    exact (Nat.mod_lt _ (Nat.pos_of_ne_zero pos')).trans below'

/-- The remainder of a division with the quotient rounded toward zero is a number. -/
theorem value?_remainder (isLeft : value? x = some a) (isRight : value? y = some b)
    (nonzero : b ≠ 0) : value? (remainder x y) = some (a - b * truncate (a / b)) := by
  obtain ⟨negative, mantissa, exponent, shape⟩ := isFinite_of_value? isLeft
  obtain ⟨negative', mantissa', exponent', shape'⟩ := isFinite_of_value? isRight
  obtain ⟨below, -, smallest, largest⟩ := representable_of_parts shape
  obtain ⟨below', -, smallest', largest'⟩ := representable_of_parts shape'
  rw [value?_of_parts shape, Option.some.injEq] at isLeft
  rw [value?_of_parts shape', Option.some.injEq] at isRight
  have pos' : mantissa' ≠ 0 := by
    rintro rfl
    refine nonzero (isRight.symm.trans ?_)
    cases negative' <;> simp [signed]
  obtain ⟨least, isLeast⟩ : ∃ least, least = min exponent exponent' := ⟨_, rfl⟩
  have left := scaled_of_le mantissa (show least ≤ exponent by omega)
  have right := scaled_of_le mantissa' (show least ≤ exponent' by omega)
  have small := mod_scaled_lt isLeast below below' pos'
  rw [remainder, shape, shape', ← isLeft, ← isRight, left, right,
    ← signed_mod negative negative' _ _ (by positivity)]
  simp only [if_neg pos', Nat.pow_eq, ← isLeast, scaledBits_eq]
  exact value?_ofMagnitude negative small (by omega) (by omega)

theorem truncate_intCast_div (value : ℤ) {divisor : ℕ} (pos : 0 < divisor) :
    truncate ((value : ℚ) / divisor) = value.tdiv divisor := by
  have pos' : (0 : ℚ) < divisor := by exact_mod_cast pos
  rw [truncate]
  split
  · next nonneg =>
    rw [le_div_iff₀ pos', zero_mul] at nonneg
    have nonneg : 0 ≤ value := by exact_mod_cast nonneg
    rw [Rat.floor_intCast_div_natCast, Int.tdiv_eq_ediv_of_nonneg nonneg]
  · next negative =>
    rw [le_div_iff₀ pos', zero_mul, not_le] at negative
    have nonneg : 0 ≤ -value := (Int.neg_pos.mpr (by exact_mod_cast negative)).le
    rw [← neg_neg ((value : ℚ) / divisor), Int.ceil_neg, ← neg_div, ← Int.cast_neg,
      Rat.floor_intCast_div_natCast, ← Int.tdiv_eq_ediv_of_nonneg nonneg, Int.neg_tdiv, neg_neg]

theorem value?_zero : value? 0 = some 0 := by
  have shape : parts 0 = .finite false 0 (-1074) := by decide +kernel
  rw [value?_of_parts shape]
  simp [signed]

theorem value?_wordModulus : value? wordModulus = some 4294967296 := by
  have shape : parts wordModulus = .finite false 4503599627370496 (-20) := by decide +kernel
  rw [value?_of_parts shape, signed]
  norm_num

theorem value?_remainder_wordModulus {value : ℤ} (isValue : value? x = some (value : ℚ)) :
    value? (remainder x wordModulus) = some (value.tmod 4294967296 : ℚ) := by
  have quotient := truncate_intCast_div value (show 0 < 4294967296 by norm_num)
  push_cast at quotient
  rw [value?_remainder isValue value?_wordModulus (by norm_num), quotient, Int.tmod_def]
  push_cast
  rfl

/-- An integer is reduced exactly: where the rest is moved up, the sum is a number again. -/
theorem value?_euclideanRemainder {value : ℤ} (isValue : value? x = some (value : ℚ)) :
    value? (euclideanRemainder x wordModulus) = some ((value % 4294967296 : ℤ) : ℚ) := by
  have isRest := value?_remainder_wordModulus isValue
  have split : value = 4294967296 * value.tdiv 4294967296 + value.tmod 4294967296 :=
    (Int.mul_tdiv_add_tmod ..).symm
  have low : -4294967296 < value.tmod 4294967296 := Int.lt_tmod_of_pos _ (by norm_num)
  have high : value.tmod 4294967296 < 4294967296 := Int.tmod_lt_of_pos _ (by norm_num)
  have same : wordModulus.abs = wordModulus := by decide +kernel
  have isNegative := lt_iff isRest value?_zero
  unfold euclideanRemainder
  simp only [same]
  by_cases negative : value.tmod 4294967296 < 0
  · have moved : value.tmod 4294967296 + 4294967296 = value % 4294967296 := by omega
    have isSum : value? (ofMagnitude false (nearestBits (value % 4294967296).toNat 1)) =
        some ((value % 4294967296 : ℤ) : ℚ) := by
      rw [value?_ofMagnitude_nearestBits false (by omega), ← Int.cast_natCast,
        Int.toNat_of_nonneg (by omega)]
      rfl
    rw [if_pos (isNegative.mpr (by exact_mod_cast negative)), ← isSum]
    congr 1
    refine add_eq isRest value?_wordModulus ?_ (by exact_mod_cast negative.ne) (by norm_num) ?_
    · rw [isSum, ← moved]
      push_cast
      rfl
    · have sum_ne : value.tmod 4294967296 + 4294967296 ≠ 0 := by omega
      exact_mod_cast sum_ne
  · have kept : value.tmod 4294967296 = value % 4294967296 := by omega
    rw [if_neg (isNegative.not.mpr (by exact_mod_cast negative)), isRest, kept]

/-! ## Conversion to a word -/

theorem toInt_unpack (isValue : value? x = some a) (low high : ℤ) :
    x.toModel.unpack.toInt low high = truncate a := by
  rcases unpack_of_value? isValue with
    ⟨rfl, sign, zero⟩ | ⟨negative, mantissa, exponent, pos, -, rfl, finite⟩
  · rw [zero]
    rfl
  rw [finite]
  have size : mantissa * 2 ^ (exponent - 0).toNat / 2 ^ (0 - min exponent 0).toNat =
      ⌊(mantissa : ℚ) * 2 ^ exponent⌋₊ := by
    by_cases whole : 0 ≤ exponent
    · rw [floor_scaled_of_nonneg _ whole, min_eq_right whole, sub_zero]
      exact Nat.div_one _
    · rw [floor_scaled_of_negative _ whole, min_eq_left (by omega), zero_sub, sub_zero,
        Int.toNat_of_nonpos (by omega), pow_zero, mul_one]
  refine Int.cast_injective (α := ℚ) ?_
  rw [truncate_signed (by positivity)]
  simp only [UnpackedFloat.toInt, UnpackedFloat.roundToInt, decreaseExponent_eq,
    UnpackedFloat.shiftToExponent, ExtendedMantissa.ofMantissaAndAccuracy, mantissa_shiftRight,
    size]
  cases negative <;> simp [signOf, Sign.apply, signed]

/-- The conversion to a word takes the integer part and saturates. -/
theorem toNat_toUInt32 (isValue : value? x = some a) :
    x.toUInt32.toNat = min (truncate a).toNat 4294967295 := by
  show (UInt32.ofNatClamp (x.toModel.unpack.toInt 0 _).toNat).toNat = _
  rw [toInt_unpack isValue, UInt32.ofNatClamp]
  split
  · next below =>
    rw [UInt32.toNat_ofNatLT]
    exact (min_eq_left (Nat.le_sub_one_of_lt below)).symm
  · next above =>
    rw [UInt32.toNat_ofNatLT]
    exact (min_eq_right (Nat.sub_le_of_le_add (by omega))).symm

theorem isFinite_eq (x : Float) : x.isFinite = (value? x).isSome := by
  show x.toModel.unpack.isFinite = _
  unfold value?
  cases x.toModel.unpack <;> rfl

end Number
end Scriptlet
