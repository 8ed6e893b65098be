import Scriptlet.Proofs.Numbers.Exact
import Scriptlet.Proofs.Numbers.Texts

/-!
# The shortest decimal and the text of a number

Every decimal that the search finds is rounded to the number it was found for, and so is the exact
one that it falls back on. The text of a finite number therefore tells its sign and its bits. An
integer has no other multiple of a power of ten near it, so it is written as itself.

* `nearest_shortest`: the shortest decimal is rounded to its number;
* `signedBits?_text`: what the text of a finite number tells;
* `shown_shortest_integer`: how integers are written.
-/

namespace Scriptlet
namespace Number

/-! ## The search -/

variable {bits mantissa num den : ℕ} {exponent power : ℤ} {decimal : Decimal}

/-- Whichever of its two points a grid gives, that point is rounded to the number. -/
theorem onGrid?_eq_some (found : onGrid? bits num den power = some decimal) :
    decimal.exponent = power ∧ nearest decimal.value = bits := by
  unfold onGrid? at found
  simp only [Decimal.nearestBits_eq] at found
  split_ifs at found with half isNearest isNearest isNearest isNearest
  all_goals
    cases found
    exact ⟨rfl, isNearest⟩

theorem value_exactDecimal (mantissa : ℕ) (exponent : ℤ) :
    (exactDecimal mantissa exponent).value = mantissa * 2 ^ exponent := by
  unfold exactDecimal Decimal.value
  split
  · next nonneg =>
    rw [zpow_of_nonneg 2 nonneg]
    simp
  · next negative =>
    have powers : (10 : ℚ) ^ (-exponent).toNat = 2 ^ (-exponent).toNat * 5 ^ (-exponent).toNat := by
      rw [← mul_pow]
      norm_num
    rw [zpow_of_negative 2 negative, zpow_of_negative 10 negative, powers, Nat.pow_eq, Nat.cast_mul,
      Nat.cast_pow, Nat.cast_ofNat]
    field_simp

theorem nearest_searchGrids (mantissa : ℕ) (exponent power : ℤ) (grids : ℕ) :
    nearest (searchGrids (scaledBits mantissa exponent) mantissa exponent power grids).value =
      nearest (mantissa * 2 ^ exponent) := by
  induction grids generalizing power with
  | zero => rw [searchGrids, value_exactDecimal]
  | succ grids ih =>
    rw [searchGrids]
    split
    · next found => rw [(onGrid?_eq_some found).2, scaledBits_eq]
    · exact ih (power - 1)

/-- The shortest decimal of a number is rounded to that number. -/
theorem nearest_shortest (mantissa : ℕ) (exponent : ℤ) :
    nearest (shortest mantissa exponent).value = nearest (mantissa * 2 ^ exponent) :=
  nearest_searchGrids _ _ _ _

theorem shortest_digits_ne_zero (isNumber : Representable mantissa exponent) (pos : 0 < mantissa) :
    (shortest mantissa exponent).digits ≠ 0 := by
  intro zero
  have isNearest := nearest_shortest mantissa exponent
  rw [isNumber.nearest_eq, Decimal.value, zero, Nat.cast_zero, zero_mul] at isNearest
  have none : nearest 0 = 0 := rfl
  omega

/-- Numbers and their shortest decimals are in the same order. -/
theorem shortest_le_iff {mantissa' : ℕ} {exponent' : ℤ} (isNumber : Representable mantissa exponent)
    (isNumber' : Representable mantissa' exponent') :
    (shortest mantissa exponent).value ≤ (shortest mantissa' exponent').value ↔
      (mantissa : ℚ) * 2 ^ exponent ≤ mantissa' * 2 ^ exponent' := by
  have isNearest := nearest_shortest mantissa exponent
  have isNearest' := nearest_shortest mantissa' exponent'
  rw [← isNumber.nearest_le_iff isNumber', ← isNearest, ← isNearest']
  refine ⟨nearest_mono (Decimal.value_nonneg _), fun le => ?_⟩
  by_contra above
  -- then both decimals are rounded to the same number, of which there is one shortest
  have back := nearest_mono (Decimal.value_nonneg _) (le_of_not_ge above)
  have same := le_antisymm le back
  rw [isNearest, isNearest'] at same
  obtain ⟨rfl, rfl⟩ := isNumber.eq_of_nearest_eq isNumber' same
  exact above le_rfl

/-! ## Exponents -/

variable {x : Float} {negative : Bool}

/-- A number is at least as large as another one whose shortest decimal is a power of ten, if its
own decimal has more places before the point. -/
theorem le_abs_iff {y : Float} {mantissa' : ℕ} {exponent' : ℤ}
    (isFinite : parts x = .finite negative mantissa exponent) (pos : 0 < mantissa)
    (isPower : parts y = .finite false mantissa' exponent')
    (isDecimal : shortest mantissa' exponent' = ⟨1, power⟩) :
    y ≤ x.abs ↔ power < (shortest mantissa exponent).pointPlace := by
  have isNumber := representable_of_parts isFinite
  rw [le_iff (value?_of_parts isPower) (value?_abs isFinite),
    ← Decimal.pow_le_value_iff (shortest_digits_ne_zero isNumber pos)]
  have value : (shortest mantissa' exponent').value = 10 ^ power := by
    rw [isDecimal, Decimal.value, Nat.cast_one, one_mul]
  rw [← value, shortest_le_iff (representable_of_parts isPower) isNumber]
  rfl

/-- A number is shown with an exponent if its digits leave no other choice. -/
theorem hasExponent_eq (isFinite : parts x = .finite negative mantissa exponent)
    (pos : 0 < mantissa) :
    hasExponent x = !Decimal.showsAllPlaces (shortest mantissa exponent).pointPlace := by
  have large : parts 1e21 = .finite false 7629394531250000 17 := by decide +kernel
  have small : parts 1e-6 = .finite false 4722366482869645 (-72) := by decide +kernel
  have isLarge : 1e21 ≤ x.abs ↔ 21 < (shortest mantissa exponent).pointPlace :=
    le_abs_iff isFinite pos large (by decide +kernel)
  have notSmall : 1e-6 ≤ x.abs ↔ -6 < (shortest mantissa exponent).pointPlace :=
    le_abs_iff isFinite pos small (by decide +kernel)
  have isSmall : x.abs < 1e-6 ↔ ¬ 1e-6 ≤ x.abs := by
    rw [lt_iff (value?_abs isFinite) (value?_of_parts small),
      le_iff (value?_of_parts small) (value?_abs isFinite), not_le]
  unfold hasExponent Decimal.showsAllPlaces
  rw [Bool.eq_iff_iff]
  simp only [isSmall, isLarge, notSmall, Bool.or_eq_true, decide_eq_true_eq, Bool.not_eq_true',
    Bool.and_eq_false_iff, decide_eq_false_iff_not]
  omega

/-! ## Integers -/

variable {value : ℕ}

/-- An integer is on the grid of the integers. -/
theorem onGrid?_zero (den_pos : 0 < den) :
    onGrid? (nearest value) (value * den) den 0 = some ⟨value, 0⟩ := by
  have same : scaleDecimal (value * den) den 0 = (value * den, den) := by simp [scaleDecimal]
  have isNearest : (Decimal.mk value 0).nearestBits = nearest value := by
    rw [Decimal.nearestBits_eq, Decimal.value, zpow_zero, mul_one]
  unfold onGrid?
  simp only [same, Nat.mul_div_cancel _ den_pos, Nat.mul_mod_left, mul_zero, den_pos, if_true,
    isNearest]

theorem fraction_of_integer (isValue : (mantissa : ℚ) * 2 ^ exponent = value) :
    (fraction mantissa exponent).1 = value * (fraction mantissa exponent).2 := by
  obtain ⟨den_pos, quotient⟩ := fraction_eq mantissa exponent
  rw [isValue, div_eq_iff (by positivity)] at quotient
  exact_mod_cast quotient

/-- On the grids of an integer above its own, only the integer itself is found. -/
theorem searchGrids_integer (isValue : (mantissa : ℚ) * 2 ^ exponent = value)
    (below : value < 2 ^ 53) {power grids : ℕ} (enough : power < grids) :
    ∃ digits zeros : ℕ, digits * 10 ^ zeros = value ∧
      searchGrids (scaledBits mantissa exponent) mantissa exponent power grids =
        ⟨digits, zeros⟩ := by
  have isBits : scaledBits mantissa exponent = nearest value := by rw [scaledBits_eq, isValue]
  induction grids generalizing power with
  | zero => omega
  | succ grids ih =>
    rw [searchGrids]
    split
    · next decimal found =>
      obtain ⟨isPower, isNearest⟩ := onGrid?_eq_some found
      obtain ⟨digits, exponent'⟩ := decimal
      obtain rfl : exponent' = power := isPower
      refine ⟨digits, power, ?_, rfl⟩
      have isNearest : nearest (digits * 10 ^ (power : ℤ)) = nearest value :=
        isNearest.trans isBits
      rw [zpow_natCast] at isNearest
      exact eq_of_nearest_eq below (by exact_mod_cast isNearest)
    · next missing =>
      cases power with
      | zero =>
        rw [isBits, fraction_of_integer isValue, Nat.cast_zero,
          onGrid?_zero (fraction_eq mantissa exponent).1] at missing
        cases missing
      | succ power =>
        have lower : ((power + 1 : ℕ) : ℤ) - 1 = power := by omega
        rw [lower]
        exact ih (by omega)

theorem powerAbove_bounds (isValue : (mantissa : ℚ) * 2 ^ exponent = value) (pos : 0 < value)
    (below : value < 2 ^ 53) : ∃ power : ℕ, powerAbove mantissa exponent = power ∧ power < 30 := by
  have mantissa_pos : 0 < mantissa := by
    rw [Nat.pos_iff_ne_zero]
    rintro rfl
    rw [Nat.cast_zero, zero_mul] at isValue
    exact pos.ne (by exact_mod_cast isValue)
  have places : (mantissa.log2 : ℤ) + exponent = Nat.log 2 value := by
    rw [← log_scaled mantissa_pos, isValue, Int.log_natCast]
  have few : Nat.log 2 value < 53 := Nat.log_lt_of_lt_pow pos.ne' below
  unfold powerAbove
  rw [Int.ofNat_eq_natCast]
  exact ⟨(((mantissa.log2 : ℤ) + exponent + 1) * 3 / 10 + 2).toNat, by omega, by omega⟩

theorem toDigits_mul_pow {digits : ℕ} (pos : 0 < digits) (zeros : ℕ) :
    Nat.toDigits 10 (digits * 10 ^ zeros) = Nat.toDigits 10 digits ++ List.replicate zeros '0' := by
  induction zeros with
  | zero => simp
  | succ zeros ih =>
    have ten_le : 10 ≤ digits * 10 ^ (zeros + 1) := by
      have := Nat.mul_pos pos (Nat.pow_pos (n := zeros) (show 0 < 10 by norm_num))
      rw [pow_succ, ← mul_assoc]
      omega
    rw [Nat.toDigits_of_base_le (by norm_num) ten_le, pow_succ, ← mul_assoc,
      Nat.mul_div_cancel _ (by norm_num), Nat.mul_mod_left, ih, List.append_assoc,
      List.replicate_succ']
    rfl

/-- An integer with at most 53 places is written as itself. -/
theorem shown_shortest_integer (isValue : (mantissa : ℚ) * 2 ^ exponent = value) (pos : 0 < value)
    (below : value < 2 ^ 53) : (shortest mantissa exponent).shown = toString value := by
  obtain ⟨power, isPower, enough⟩ := powerAbove_bounds isValue pos below
  obtain ⟨digits, zeros, product, found⟩ := searchGrids_integer isValue below enough
  have digits_pos : 0 < digits := Nat.pos_of_ne_zero fun zero => by simp [zero] at product; omega
  have text : Nat.toDigits 10 digits ++ List.replicate zeros '0' = Nat.toDigits 10 value := by
    rw [← toDigits_mul_pow digits_pos, product]
  have few : (Nat.toDigits 10 value).length ≤ 21 := by
    rw [Nat.length_toDigits_le_iff (by norm_num) (by norm_num)]
    exact lt_trans below (by norm_num)
  have isShortest : shortest mantissa exponent = ⟨digits, zeros⟩ := by
    rw [shortest, isPower, found]
  have place : (shortest mantissa exponent).pointPlace = (Nat.toDigits 10 value).length := by
    rw [isShortest, ← text, List.length_append, List.length_replicate]
    rfl
  have all : Decimal.showsAllPlaces (shortest mantissa exponent).pointPlace = true := by
    rw [place]
    simp [Decimal.showsAllPlaces]
    omega
  rw [Decimal.shown, if_pos all, isShortest, Decimal.positional]
  simp only [Nat.cast_nonneg, if_true, Int.toNat_natCast]
  rw [Nat.toString_eq_ofList_toDigits, ← text]
  rfl

/-! ## What the text of a number tells -/

theorem text_of_zero (isZero : parts x = .finite negative 0 exponent) : text x = "0" := by
  rw [text, isZero]
  rfl

theorem text_of_parts (isFinite : parts x = .finite negative mantissa exponent)
    (pos : 0 < mantissa) :
    text x = if negative then "-" ++ (shortest mantissa exponent).shown
      else (shortest mantissa exponent).shown := by
  rw [text, isFinite, hasExponent_eq isFinite pos]
  simp only [if_neg pos.ne', Decimal.shown]
  cases Decimal.showsAllPlaces (shortest mantissa exponent).pointPlace <;> rfl

/-- The sign and the bits of the absolute value that the text of a decimal tells. -/
def signedBits? (text : String) : Option (Bool × ℕ) :=
  match text.toList with
  | '-' :: rest => (Decimal.read? rest).map fun decimal => (true, nearest decimal.value)
  | chars => (Decimal.read? chars).map fun decimal => (false, nearest decimal.value)

theorem signedBits?_minus (text : String) :
    signedBits? ("-" ++ text) =
      (Decimal.read? text.toList).map fun decimal => (true, nearest decimal.value) := by
  have minus : ("-" ++ text).toList = '-' :: text.toList := String.toList_append
  unfold signedBits?
  rw [minus]
  rfl

/-- What is read as a decimal has no sign. -/
theorem signedBits?_of_read {text : String} (reads : Decimal.read? text.toList = some decimal) :
    signedBits? text = some (false, nearest decimal.value) := by
  unfold signedBits?
  split
  · next rest signed =>
    rw [signed] at reads
    cases reads
  · rw [reads, Option.map_some]

/-- What the shortest decimal of a number is shown as is read back as a decimal that is rounded to
that number. -/
theorem read?_shown_shortest (isNumber : Representable mantissa exponent) (pos : 0 < mantissa) :
    ∃ back, Decimal.read? (shortest mantissa exponent).shown.toList = some back ∧
      nearest back.value = nearest (mantissa * 2 ^ exponent) := by
  have bits := isNumber.nearest_eq
  have isNearest := nearest_shortest mantissa exponent
  obtain ⟨below, -, smallest, largest⟩ := isNumber
  have bits_pos : 0 < nearest (shortest mantissa exponent).value := by
    rw [isNearest, bits]
    omega
  have finite : nearest (shortest mantissa exponent).value < infinityBits := by
    rw [isNearest, bits, infinityBits_eq]
    omega
  obtain ⟨back, reads, same⟩ := Decimal.read?_shown bits_pos finite
  exact ⟨back, reads, by rw [same, isNearest]⟩

/-- The text of a finite number tells its bits, and its sign unless it is zero. -/
theorem signedBits?_text (isFinite : parts x = .finite negative mantissa exponent) :
    signedBits? (text x) =
      some (negative && decide (0 < mantissa), nearest (mantissa * 2 ^ exponent)) := by
  rcases Nat.eq_zero_or_pos mantissa with rfl | pos
  · have zero : Decimal.read? "0".toList = some ⟨0, 0⟩ := rfl
    rw [text_of_zero isFinite, signedBits?_of_read zero]
    simp [Decimal.value]
  obtain ⟨back, reads, isNearest⟩ := read?_shown_shortest (representable_of_parts isFinite) pos
  rw [text_of_parts isFinite pos]
  cases negative with
  | false => simp [signedBits?_of_read reads, isNearest]
  | true => simp [signedBits?_minus, reads, isNearest, pos]

end Number
end Scriptlet
