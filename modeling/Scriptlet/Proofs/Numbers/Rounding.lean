import Mathlib.Algebra.Order.Field.Power
import Mathlib.Algebra.Order.Floor.Semifield
import Mathlib.Data.Int.Log
import Mathlib.Data.Rat.Floor
import Mathlib.Tactic.FieldSimp
import Mathlib.Tactic.Linarith
import Scriptlet.Number.Shortest

/-!
# Rounding to the nearest number

The bits that are computed for a quotient of naturals, for a mantissa with an exponent and for a
decimal depend on their value alone.

* `nearest`: the bits of the number nearest to a value;
* `Representable`: the mantissas and exponents of the numbers, which are rounded to themselves.
-/

namespace Scriptlet
namespace Number

/-! ## Rounding a value -/

/-- A value rounded to a natural number, a tie going to the even one. -/
def roundEven (value : ℚ) : ℕ :=
  if 1 / 2 < value - ⌊value⌋₊ ∨ value - ⌊value⌋₊ = 1 / 2 ∧ ⌊value⌋₊ % 2 = 1 then ⌊value⌋₊ + 1
  else ⌊value⌋₊

/-- The exponent of the last of the 53 places that the number nearest to a value has. Small
numbers have fewer places. -/
def lastPlace (value : ℚ) : ℤ :=
  max (-1074) (Int.log 2 value - 52)

/-- The bits of the number nearest to a value that is not negative, infinity if that is too
large. -/
def nearest (value : ℚ) : ℕ :=
  if value = 0 then 0
  else min infinityBits
    ((lastPlace value + 1074).toNat * 2 ^ 52 + roundEven (value / 2 ^ lastPlace value))

/-! ## Powers and logarithms -/

theorem zpow_of_nonneg (base : ℚ) {exponent : ℤ} (nonneg : 0 ≤ exponent) :
    base ^ exponent = base ^ exponent.toNat := by
  rw [← zpow_natCast, Int.toNat_of_nonneg nonneg]

theorem zpow_of_negative (base : ℚ) {exponent : ℤ} (negative : ¬ 0 ≤ exponent) :
    base ^ exponent = (base ^ (-exponent).toNat)⁻¹ := by
  rw [← zpow_natCast, ← zpow_neg, Int.toNat_of_nonneg (by omega), neg_neg]

theorem zpow_mul_pow {low high : ℤ} {places : ℕ} (sum : low + places = high) :
    (2 : ℚ) ^ low * 2 ^ places = 2 ^ high := by
  rw [← sum, zpow_add₀ two_ne_zero, zpow_natCast]

theorem pow_log2_le {value : ℕ} (pos : 0 < value) : (2 : ℚ) ^ value.log2 ≤ value := by
  exact_mod_cast Nat.log2_self_le pos.ne'

theorem lt_pow_log2 (value : ℕ) : (value : ℚ) < 2 ^ (value.log2 + 1) := by
  exact_mod_cast Nat.lt_log2_self

theorem log_scaled {mantissa : ℕ} (pos : 0 < mantissa) (exponent : ℤ) :
    Int.log 2 ((mantissa : ℚ) * 2 ^ exponent) = mantissa.log2 + exponent := by
  have value_pos : (0 : ℚ) < mantissa * 2 ^ exponent := by positivity
  have low : mantissa.log2 + exponent ≤ Int.log 2 ((mantissa : ℚ) * 2 ^ exponent) := by
    have shift : (2 : ℚ) ^ exponent * 2 ^ mantissa.log2 = 2 ^ (mantissa.log2 + exponent) :=
      zpow_mul_pow (by omega)
    have le := pow_log2_le pos
    rw [← Int.zpow_le_iff_le_log one_lt_two value_pos, Nat.cast_ofNat, ← shift, mul_comm]
    gcongr
  have high : Int.log 2 ((mantissa : ℚ) * 2 ^ exponent) < mantissa.log2 + 1 + exponent := by
    have shift : (2 : ℚ) ^ exponent * 2 ^ (mantissa.log2 + 1) =
        2 ^ (mantissa.log2 + 1 + exponent) := zpow_mul_pow (by omega)
    have lt := lt_pow_log2 mantissa
    rw [← Int.lt_zpow_iff_log_lt one_lt_two value_pos, Nat.cast_ofNat, ← shift, mul_comm]
    gcongr
  omega

/-! ## Quotients -/

theorem quotient_lt_iff (num den bound : ℕ) : num / den < bound ↔ (num : ℚ) / den < bound := by
  rw [← Nat.floor_div_eq_div (K := ℚ), Nat.floor_lt (by positivity)]

theorem roundQuotient_eq (num : ℕ) {den : ℕ} (positive : 0 < den) :
    roundQuotient num den = roundEven (num / den) := by
  have isPositive : (0 : ℚ) < den := by exact_mod_cast positive
  have split : (num : ℚ) = den * (num / den : ℕ) + (num % den : ℕ) := by
    exact_mod_cast (Nat.div_add_mod num den).symm
  have rest : (num : ℚ) / den - (num / den : ℕ) = (num % den : ℕ) / den := by
    nth_rewrite 1 [split]
    field_simp
    ring
  have above : (1 : ℚ) / 2 < (num % den : ℕ) / den ↔ den < 2 * (num % den) := by
    rw [div_lt_div_iff₀ two_pos isPositive, one_mul, mul_comm]
    exact_mod_cast Iff.rfl
  have tie : (num % den : ℕ) / (den : ℚ) = 1 / 2 ↔ 2 * (num % den) = den := by
    rw [div_eq_div_iff isPositive.ne' two_ne_zero, one_mul, mul_comm]
    exact_mod_cast Iff.rfl
  unfold roundQuotient roundEven
  simp only [Nat.floor_div_eq_div, rest, above, tie, Bool.or_eq_true, Bool.and_eq_true,
    decide_eq_true_eq, beq_iff_eq]

theorem scaleBinary_eq (num : ℕ) {den : ℕ} (positive : 0 < den) (exponent : ℤ) :
    0 < (scaleBinary num den exponent).2 ∧
      ((scaleBinary num den exponent).1 : ℚ) / (scaleBinary num den exponent).2 =
        num / den / 2 ^ exponent := by
  unfold scaleBinary
  simp only [Nat.pow_eq]
  split
  · next nonneg =>
    refine ⟨by positivity, ?_⟩
    rw [zpow_of_nonneg 2 nonneg, Nat.cast_mul, Nat.cast_pow, Nat.cast_ofNat, div_div]
  · next negative =>
    refine ⟨positive, ?_⟩
    rw [zpow_of_negative 2 negative, Nat.cast_mul, Nat.cast_pow, Nat.cast_ofNat, div_inv_eq_mul,
      mul_div_right_comm]

/-- The lengths of numerator and denominator leave two choices for the length of the quotient. -/
theorem log_quotient {num den : ℕ} (num_pos : 0 < num) (den_pos : 0 < den) :
    num.log2 - den.log2 - 1 ≤ Int.log 2 ((num : ℚ) / den) ∧
      Int.log 2 ((num : ℚ) / den) < num.log2 - den.log2 + 1 := by
  have value_pos : (0 : ℚ) < num / den := by positivity
  have den_pos' : (0 : ℚ) < den := by exact_mod_cast den_pos
  have num_low := pow_log2_le num_pos
  have num_high := lt_pow_log2 num
  have den_low := pow_log2_le den_pos
  have den_high := lt_pow_log2 den
  rw [← Int.zpow_le_iff_le_log one_lt_two value_pos, ← Int.lt_zpow_iff_log_lt one_lt_two value_pos,
    le_div_iff₀ den_pos', div_lt_iff₀ den_pos', Nat.cast_ofNat]
  constructor
  · calc (2 : ℚ) ^ ((num.log2 : ℤ) - den.log2 - 1) * den
        ≤ 2 ^ ((num.log2 : ℤ) - den.log2 - 1) * 2 ^ (den.log2 + 1) := by gcongr
      _ = 2 ^ (num.log2 : ℤ) := zpow_mul_pow (by omega)
      _ ≤ num := by rwa [zpow_natCast]
  · calc (num : ℚ) < 2 ^ (num.log2 + 1 : ℤ) := by rwa [← Nat.cast_succ, zpow_natCast]
      _ = 2 ^ ((num.log2 : ℤ) - den.log2 + 1) * 2 ^ den.log2 := (zpow_mul_pow (by omega)).symm
      _ ≤ 2 ^ ((num.log2 : ℤ) - den.log2 + 1) * den := by gcongr

theorem targetExponent_eq {num den : ℕ} (num_pos : 0 < num) (den_pos : 0 < den) :
    targetExponent num den = lastPlace (num / den) := by
  have value_pos : (0 : ℚ) < num / den := by positivity
  obtain ⟨low, high⟩ := log_quotient num_pos den_pos
  obtain ⟨-, scaled⟩ := scaleBinary_eq num den_pos (num.log2 - den.log2 - 52)
  have shift : (2 : ℚ) ^ ((num.log2 : ℤ) - den.log2 - 52) * 2 ^ 52 =
      2 ^ ((num.log2 : ℤ) - den.log2) := zpow_mul_pow (by omega)
  have below : (scaleBinary num den (num.log2 - den.log2 - 52)).1 /
      (scaleBinary num den (num.log2 - den.log2 - 52)).2 < 2 ^ 52 ↔
        Int.log 2 ((num : ℚ) / den) < num.log2 - den.log2 := by
    rw [quotient_lt_iff, scaled, ← Int.lt_zpow_iff_log_lt one_lt_two value_pos,
      div_lt_iff₀ (by positivity), mul_comm, Nat.cast_pow, Nat.cast_ofNat, shift]
  unfold targetExponent lastPlace
  simp only [Int.ofNat_eq_natCast, Nat.pow_eq, below]
  split <;> congr 1 <;> omega

theorem nearestBits_eq (num : ℕ) {den : ℕ} (den_pos : 0 < den) :
    nearestBits num den = nearest (num / den) := by
  rcases Nat.eq_zero_or_pos num with rfl | num_pos
  · simp [nearestBits, nearest]
  have value_pos : (0 : ℚ) < num / den := by positivity
  obtain ⟨scaled_pos, scaled⟩ := scaleBinary_eq num den_pos (lastPlace (num / den))
  unfold nearestBits nearest
  rw [if_neg num_pos.ne', if_neg value_pos.ne']
  simp only [targetExponent_eq num_pos den_pos, roundQuotient_eq _ scaled_pos, scaled, Nat.pow_eq]

theorem fraction_eq (mantissa : ℕ) (exponent : ℤ) :
    0 < (fraction mantissa exponent).2 ∧
      ((fraction mantissa exponent).1 : ℚ) / (fraction mantissa exponent).2 =
        mantissa * 2 ^ exponent := by
  unfold fraction
  simp only [Nat.pow_eq]
  split
  · next nonneg =>
    refine ⟨one_pos, ?_⟩
    rw [zpow_of_nonneg 2 nonneg, Nat.cast_mul, Nat.cast_pow, Nat.cast_ofNat, Nat.cast_one, div_one]
  · next negative =>
    refine ⟨by positivity, ?_⟩
    rw [zpow_of_negative 2 negative, Nat.cast_pow, Nat.cast_ofNat, div_eq_mul_inv]

theorem scaledBits_eq (mantissa : ℕ) (exponent : ℤ) :
    scaledBits mantissa exponent = nearest (mantissa * 2 ^ exponent) := by
  have isFraction : scaledBits mantissa exponent =
      nearestBits (fraction mantissa exponent).1 (fraction mantissa exponent).2 := by
    unfold scaledBits fraction
    split <;> rfl
  obtain ⟨den_pos, quotient⟩ := fraction_eq mantissa exponent
  rw [isFraction, nearestBits_eq _ den_pos, quotient]

/-! ## Bounds -/

theorem infinityBits_eq : infinityBits = 2047 * 2 ^ 52 := rfl

theorem roundEven_natCast (value : ℕ) : roundEven value = value := by
  norm_num [roundEven]

theorem le_roundEven {bound : ℕ} {value : ℚ} (le : bound ≤ value) : bound ≤ roundEven value := by
  have whole : bound ≤ ⌊value⌋₊ := Nat.le_floor le
  unfold roundEven
  split
  · omega
  · exact whole

theorem roundEven_le (value : ℚ) : roundEven value ≤ ⌊value⌋₊ + 1 := by
  unfold roundEven
  split <;> omega

theorem roundEven_mono {value other : ℚ} (le : value ≤ other) :
    roundEven value ≤ roundEven other := by
  rcases (Nat.floor_mono le).lt_or_eq with lower | same
  · calc roundEven value ≤ ⌊value⌋₊ + 1 := roundEven_le value
      _ ≤ ⌊other⌋₊ := lower
      _ ≤ roundEven other := by
        unfold roundEven
        split <;> omega
  · unfold roundEven
    rw [same]
    split
    · next up =>
      rw [if_pos]
      rcases up with above | ⟨tie, odd⟩
      · exact .inl (by linarith)
      · rcases le.lt_or_eq with lt | rfl
        · exact .inl (by linarith)
        · exact .inr ⟨tie, odd⟩
    · split <;> omega

theorem roundEven_of_lt_half {value : ℚ} (lt : value < 1 / 2) : roundEven value = 0 := by
  have whole : ⌊value⌋₊ = 0 := Nat.floor_eq_zero.mpr (by linarith)
  unfold roundEven
  rw [whole, if_neg]
  rintro (above | ⟨-, odd⟩)
  · norm_num at above
    linarith
  · cases odd

theorem nearest_le (value : ℚ) : nearest value ≤ infinityBits := by
  unfold nearest
  split
  · exact Nat.zero_le _
  · exact min_le_left _ _

theorem lastPlace_of_normal {value : ℚ} (normal : -1022 ≤ Int.log 2 value) :
    lastPlace value = Int.log 2 value - 52 := by
  unfold lastPlace
  omega

/-- Above the lowest exponent all 53 places are there. -/
theorem le_div_lastPlace {value : ℚ} (pos : 0 < value) (normal : -1022 ≤ Int.log 2 value) :
    2 ^ 52 ≤ value / 2 ^ lastPlace value := by
  have shift : (2 : ℚ) ^ (Int.log 2 value - 52) * 2 ^ 52 = 2 ^ Int.log 2 value :=
    zpow_mul_pow (by omega)
  rw [le_div_iff₀ (by positivity), mul_comm, lastPlace_of_normal normal, shift]
  exact_mod_cast Int.zpow_log_le_self one_lt_two pos

/-- A value from a power of two on has at least the bits of that power. -/
theorem le_nearest {value : ℚ} {field : ℕ} (normal : 0 < field)
    (le : 2 ^ ((field : ℤ) - 1023) ≤ value) :
    min infinityBits (field * 2 ^ 52) ≤ nearest value := by
  have value_pos : 0 < value := lt_of_lt_of_le (by positivity) le
  have high : (field : ℤ) - 1023 ≤ Int.log 2 value := by
    rw [← Int.zpow_le_iff_le_log one_lt_two value_pos]
    exact_mod_cast le
  have place : lastPlace value = Int.log 2 value - 52 := lastPlace_of_normal (by omega)
  have full : ((2 ^ 52 : ℕ) : ℚ) ≤ value / 2 ^ lastPlace value := by
    exact_mod_cast le_div_lastPlace value_pos (by omega)
  have rounded := le_roundEven full
  unfold nearest
  rw [if_neg value_pos.ne']
  refine min_le_min le_rfl ?_
  omega

theorem lastPlace_mono {value other : ℚ} (pos : 0 < value) (le : value ≤ other) :
    lastPlace value ≤ lastPlace other :=
  max_le_max le_rfl (Int.sub_le_sub_right (Int.log_mono_right pos le) 52)

/-- The 53 places of a value are enough for its digits before the last place. -/
theorem div_lastPlace_lt (value : ℚ) : value / 2 ^ lastPlace value < 2 ^ 53 := by
  have shift : (2 : ℚ) ^ lastPlace value * 2 ^ 53 = 2 ^ (lastPlace value + 53) :=
    zpow_mul_pow (by omega)
  rw [div_lt_iff₀ (by positivity), mul_comm, shift]
  have below : value < (2 : ℕ) ^ (Int.log 2 value + 1) := Int.lt_zpow_succ_log_self one_lt_two value
  refine below.trans_le ?_
  rw [Nat.cast_ofNat]
  exact zpow_le_zpow_right₀ one_le_two (by unfold lastPlace; omega)

/-- Rounding keeps the order. -/
theorem nearest_mono {value other : ℚ} (nonneg : 0 ≤ value) (le : value ≤ other) :
    nearest value ≤ nearest other := by
  rcases nonneg.eq_or_lt with rfl | pos
  · exact Nat.zero_le _
  have pos' : 0 < other := pos.trans_le le
  unfold nearest
  rw [if_neg pos.ne', if_neg pos'.ne']
  refine min_le_min le_rfl ?_
  rcases (lastPlace_mono pos le).lt_or_eq with lower | same
  · -- the larger value has at least one place more, which makes up for any rounding
    have smallest : -1074 ≤ lastPlace value := le_max_left _ _
    have few : roundEven (value / 2 ^ lastPlace value) ≤ 2 ^ 53 := by
      have rounded := roundEven_mono (div_lastPlace_lt value).le
      rwa [show (2 ^ 53 : ℚ) = (2 ^ 53 : ℕ) by norm_num, roundEven_natCast] at rounded
    have many : 2 ^ 52 ≤ roundEven (other / 2 ^ lastPlace other) := by
      have normal : -1022 ≤ Int.log 2 other := by
        unfold lastPlace at lower
        omega
      refine le_roundEven ?_
      exact_mod_cast le_div_lastPlace pos' normal
    omega
  · rw [same]
    gcongr
    exact roundEven_mono (by gcongr)

/-- A value above all numbers is rounded to infinity. -/
theorem nearest_of_le {value : ℚ} (le : 2 ^ 1024 ≤ value) : nearest value = infinityBits := by
  have bound : min infinityBits (2047 * 2 ^ 52) ≤ nearest value := by
    refine le_nearest (by norm_num) ?_
    norm_cast
  rw [← infinityBits_eq, min_self] at bound
  exact le_antisymm (nearest_le value) bound

/-- A value below half of the smallest number is rounded to zero. -/
theorem nearest_of_lt {value : ℚ} (nonneg : 0 ≤ value) (lt : value < 2 ^ (-1075 : ℤ)) :
    nearest value = 0 := by
  rcases nonneg.eq_or_lt with rfl | value_pos
  · rfl
  have low : Int.log 2 value < -1075 := by
    rw [← Int.lt_zpow_iff_log_lt one_lt_two value_pos]
    exact_mod_cast lt
  have place : lastPlace value = -1074 := by
    unfold lastPlace
    omega
  have half : (2 : ℚ) ^ (-1075 : ℤ) * 2 ^ 1 = 2 ^ (-1074 : ℤ) := zpow_mul_pow (by omega)
  have small : value / 2 ^ (-1074 : ℤ) < 1 / 2 := by
    rw [div_lt_iff₀ (by positivity)]
    linarith
  unfold nearest
  rw [if_neg value_pos.ne', place, roundEven_of_lt_half small]
  rfl

theorem lt_of_nearest_lt {value : ℚ} (finite : nearest value < infinityBits) :
    value < 2 ^ 1024 := by
  by_contra huge
  rw [nearest_of_le (le_of_not_gt huge)] at finite
  exact lt_irrefl _ finite

theorem le_of_nearest_pos {value : ℚ} (nonneg : 0 ≤ value) (pos : 0 < nearest value) :
    2 ^ (-1075 : ℤ) ≤ value := by
  by_contra tiny
  rw [nearest_of_lt nonneg (lt_of_not_ge tiny)] at pos
  exact lt_irrefl _ pos

/-! ## Representable values -/

/-- Whether a mantissa and an exponent are those of a number: the mantissa has 53 places, or the
exponent is the smallest one. -/
structure Representable (mantissa : ℕ) (exponent : ℤ) : Prop where
  below : mantissa < 2 ^ 53
  full : 2 ^ 52 ≤ mantissa ∨ exponent = -1074
  smallest : -1074 ≤ exponent
  largest : exponent ≤ 971

namespace Representable

variable {mantissa mantissa' : ℕ} {exponent exponent' : ℤ}

theorem lastPlace_eq (isNumber : Representable mantissa exponent) (pos : 0 < mantissa) :
    lastPlace (mantissa * 2 ^ exponent) = exponent := by
  obtain ⟨below, full, smallest, -⟩ := isNumber
  have places : mantissa.log2 < 53 := (Nat.log2_lt pos.ne').mpr below
  unfold lastPlace
  rw [log_scaled pos]
  rcases full with full | rfl
  · have many : 52 ≤ mantissa.log2 := (Nat.le_log2 pos.ne').mpr full
    omega
  · omega

/-- The bits of a number, as they follow from mantissa and exponent. -/
theorem nearest_eq (isNumber : Representable mantissa exponent) :
    nearest (mantissa * 2 ^ exponent) = (exponent + 1074).toNat * 2 ^ 52 + mantissa := by
  obtain ⟨below, full, smallest, largest⟩ := isNumber
  rcases Nat.eq_zero_or_pos mantissa with rfl | pos
  · have isSmallest : exponent = -1074 := by omega
    rw [isSmallest]
    simp [nearest]
  have value_pos : (0 : ℚ) < mantissa * 2 ^ exponent := by positivity
  unfold nearest
  rw [if_neg value_pos.ne', lastPlace_eq ⟨below, full, smallest, largest⟩ pos,
    mul_div_cancel_right₀ _ (by positivity), roundEven_natCast, infinityBits_eq]
  omega

/-- Numbers with the same bits have the same mantissa and exponent. -/
theorem eq_of_nearest_eq (isNumber : Representable mantissa exponent)
    (isNumber' : Representable mantissa' exponent')
    (same : nearest (mantissa * 2 ^ exponent) = nearest (mantissa' * 2 ^ exponent')) :
    mantissa = mantissa' ∧ exponent = exponent' := by
  rw [isNumber.nearest_eq, isNumber'.nearest_eq] at same
  obtain ⟨below, full, smallest, -⟩ := isNumber
  obtain ⟨below', full', smallest', -⟩ := isNumber'
  omega

theorem nearest_le_iff (isNumber : Representable mantissa exponent)
    (isNumber' : Representable mantissa' exponent') :
    nearest (mantissa * 2 ^ exponent) ≤ nearest (mantissa' * 2 ^ exponent') ↔
      (mantissa : ℚ) * 2 ^ exponent ≤ mantissa' * 2 ^ exponent' := by
  refine ⟨fun le => ?_, nearest_mono (by positivity)⟩
  by_contra above
  have back := nearest_mono (by positivity) (le_of_not_ge above)
  obtain ⟨rfl, rfl⟩ := isNumber.eq_of_nearest_eq isNumber' (le_antisymm le back)
  exact above le_rfl

end Representable

/-! ## Integers -/

/-- A natural number with at most 53 places, times a power of two, is a number. -/
theorem exists_representable_scaled {value : ℕ} (below : value < 2 ^ 53) {scale : ℤ}
    (low : -1074 ≤ scale) (high : scale ≤ 971) :
    ∃ mantissa exponent, Representable mantissa exponent ∧ exponent ≤ scale ∧
      (mantissa : ℚ) * 2 ^ exponent = value * 2 ^ scale := by
  rcases Nat.eq_zero_or_pos value with rfl | pos
  · exact ⟨0, -1074, ⟨by norm_num, .inr rfl, le_rfl, by norm_num⟩, low, by norm_num⟩
  have least : 2 ^ value.log2 ≤ value := Nat.log2_self_le pos.ne'
  have most : value < 2 ^ (value.log2 + 1) := Nat.lt_log2_self
  have places : value.log2 ≤ 52 := by
    have := (Nat.log2_lt pos.ne').mpr below
    omega
  -- the mantissa is filled up to 53 places, but only as far as there are exponents
  obtain ⟨shift, isShift⟩ : ∃ shift, shift = min (52 - value.log2) (scale + 1074).toNat := ⟨_, rfl⟩
  have scaled : (2 : ℚ) ^ (scale - shift) * 2 ^ shift = 2 ^ scale := zpow_mul_pow (by omega)
  refine ⟨value * 2 ^ shift, scale - shift, ⟨?_, ?_, by omega, by omega⟩, by omega, ?_⟩
  · calc value * 2 ^ shift < 2 ^ (value.log2 + 1) * 2 ^ shift := by gcongr
      _ = 2 ^ (value.log2 + 1 + shift) := (pow_add ..).symm
      _ ≤ 2 ^ 53 := Nat.pow_le_pow_right two_pos (by omega)
  · by_cases fills : shift = 52 - value.log2
    · left
      calc 2 ^ 52 = 2 ^ value.log2 * 2 ^ shift := by rw [← pow_add]; congr 1; omega
        _ ≤ value * 2 ^ shift := by gcongr
    · right
      omega
  · rw [Nat.cast_mul, Nat.cast_pow, Nat.cast_ofNat, mul_assoc, mul_comm (2 ^ _), scaled]

/-- A natural number with at most 53 places is a number. -/
theorem exists_representable {value : ℕ} (below : value < 2 ^ 53) :
    ∃ mantissa exponent, Representable mantissa exponent ∧ exponent ≤ 0 ∧
      (mantissa : ℚ) * 2 ^ exponent = value := by
  obtain ⟨mantissa, exponent, isNumber, nonpos, isValue⟩ :=
    exists_representable_scaled below (show -1074 ≤ (0 : ℤ) by norm_num) (by norm_num)
  exact ⟨mantissa, exponent, isNumber, nonpos, by rw [isValue, zpow_zero, mul_one]⟩

/-- No other natural number is rounded to a natural number with at most 53 places. -/
theorem eq_of_nearest_eq {value other : ℕ} (below : value < 2 ^ 53)
    (same : nearest other = nearest value) : other = value := by
  obtain ⟨mantissa, exponent, isNumber, nonpos, isValue⟩ := exists_representable below
  rw [← isValue] at same
  rcases Nat.lt_or_ge other (2 ^ 53) with small | large
  · obtain ⟨mantissa', exponent', isNumber', -, isOther⟩ := exists_representable small
    rw [← isOther] at same
    obtain ⟨rfl, rfl⟩ := isNumber'.eq_of_nearest_eq isNumber same
    exact_mod_cast isOther.symm.trans isValue
  · -- from here on the exponent is higher than any that `value` can have
    have high : ((2 : ℚ) ^ ((1076 : ℕ) - 1023 : ℤ)) ≤ other := by
      norm_num
      exact_mod_cast large
    have bound := le_nearest (by norm_num) high
    have mantissa_below := isNumber.below
    rw [same, isNumber.nearest_eq, infinityBits_eq] at bound
    omega

/-! ## Decimals -/

namespace Decimal

/-- The value of a decimal. -/
def value (decimal : Decimal) : ℚ :=
  decimal.digits * 10 ^ decimal.exponent

theorem value_nonneg (decimal : Decimal) : 0 ≤ decimal.value := by
  unfold value
  positivity

theorem le_value_of_huge {digits : ℕ} {exponent : ℤ} (nonzero : digits ≠ 0)
    (huge : 310 < exponent) : 2 ^ 1024 ≤ value ⟨digits, exponent⟩ := by
  have one_le : (1 : ℚ) ≤ digits := by exact_mod_cast Nat.one_le_iff_ne_zero.mpr nonzero
  have powers : 2 ^ 1024 ≤ 10 ^ 311 := by decide +kernel
  calc (2 : ℚ) ^ 1024 ≤ 10 ^ 311 := by exact_mod_cast powers
    _ = 10 ^ ((311 : ℕ) : ℤ) := (zpow_natCast 10 311).symm
    _ ≤ 10 ^ exponent := zpow_le_zpow_right₀ (by norm_num) (by omega)
    _ ≤ digits * 10 ^ exponent := le_mul_of_one_le_left (by positivity) one_le

theorem value_lt_of_tiny {digits : ℕ} {exponent : ℤ} (tiny : exponent + digits.log2 + 331 < 0) :
    value ⟨digits, exponent⟩ < 2 ^ (-1075 : ℤ) := by
  have below := lt_pow_log2 digits
  have powers : 2 ^ 1075 < 10 ^ 331 := by decide +kernel
  calc (digits : ℚ) * 10 ^ exponent < 2 ^ (digits.log2 + 1) * 10 ^ exponent := by gcongr
    _ ≤ 10 ^ (digits.log2 + 1) * 10 ^ exponent := by gcongr; norm_num
    _ = 10 ^ (digits.log2 + 1 + exponent) := by
      rw [← zpow_natCast, ← zpow_add₀ (by norm_num), Nat.cast_succ]
    _ ≤ 10 ^ (-(331 : ℕ) : ℤ) := zpow_le_zpow_right₀ (by norm_num) (by omega)
    _ < 2 ^ (-(1075 : ℕ) : ℤ) := by
      rw [zpow_neg, zpow_neg, zpow_natCast, zpow_natCast]
      refine inv_strictAnti₀ (by positivity) ?_
      exact_mod_cast powers

/-- The bits are those of the number nearest to the value, also where no power of ten is
computed. -/
theorem nearestBits_eq (decimal : Decimal) : decimal.nearestBits = nearest decimal.value := by
  obtain ⟨digits, exponent⟩ := decimal
  unfold nearestBits
  dsimp only
  split
  · next zero => simp [value, zero, nearest]
  next nonzero =>
  split
  · next huge => exact (nearest_of_le (le_value_of_huge nonzero huge)).symm
  next notHuge =>
  split
  · next tiny => exact (nearest_of_lt (value_nonneg _) (value_lt_of_tiny tiny)).symm
  next notTiny =>
  rw [value]
  split
  · next nonneg =>
    rw [Number.nearestBits_eq _ one_pos, zpow_of_nonneg 10 nonneg]
    simp
  · next negative =>
    rw [Number.nearestBits_eq _ (by simp), zpow_of_negative 10 negative]
    simp [div_eq_mul_inv]

end Decimal

end Number
end Scriptlet
