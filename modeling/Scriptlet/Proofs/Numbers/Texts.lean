import Scriptlet.Number.Format
import Scriptlet.Proofs.Keys
import Scriptlet.Proofs.Numbers.Rounding

/-!
# Decimals and their texts

A decimal is written with all its places or with an exponent, and both texts are read back as a
decimal of the same value.
-/

namespace Scriptlet
namespace Number
namespace Decimal

/-! ## Digits -/

theorem digitsValue_append (digits more : List Char) :
    digitsValue (digits ++ more) = digitsValue digits * 10 ^ more.length + digitsValue more := by
  induction more using List.reverseRecOn with
  | nil =>
    rw [List.append_nil, List.length_nil, pow_zero, mul_one]
    rfl
  | append_singleton more last ih =>
    rw [← List.append_assoc, digitsValue_concat, digitsValue_concat, ih, List.length_append,
      List.length_singleton, pow_succ]
    ring

theorem digitsValue_zeros (count : ℕ) : digitsValue (List.replicate count '0') = 0 := by
  induction count with
  | zero => rfl
  | succ count ih =>
    rw [List.replicate_succ', digitsValue_concat, ih]
    rfl

/-- Zeros behind digits shift them, zeros before them change nothing. -/
theorem digitsValue_append_zeros (digits : List Char) (count : ℕ) :
    digitsValue (digits ++ List.replicate count '0') = digitsValue digits * 10 ^ count := by
  rw [digitsValue_append, digitsValue_zeros, List.length_replicate, add_zero]

theorem digitsValue_zeros_append (count : ℕ) (digits : List Char) :
    digitsValue (List.replicate count '0' ++ digits) = digitsValue digits := by
  rw [digitsValue_append, digitsValue_zeros, zero_mul, zero_add]

theorem isDigit_of_mem_toDigits {value : ℕ} {digit : Char}
    (member : digit ∈ Nat.toDigits 10 value) : Text.isDigit digit = true :=
  Nat.isDigit_of_mem_toDigits (by norm_num) le_rfl member

/-! ## Reading -/

/-- Whether nothing stands behind the digits, or an exponent does. -/
def Trailing (tail : List Char) : Prop :=
  tail = [] ∨ ∃ rest, tail = 'e' :: rest

variable {whole fraction tail : List Char}

theorem splitFraction_trailing (trailing : Trailing tail) : splitFraction tail = ([], tail) := by
  rcases trailing with rfl | ⟨rest, rfl⟩ <;> rfl

theorem takeWhile_trailing (trailing : Trailing tail) : tail.takeWhile Text.isDigit = [] := by
  rcases trailing with rfl | ⟨rest, rfl⟩ <;> rfl

theorem dropWhile_trailing (trailing : Trailing tail) : tail.dropWhile Text.isDigit = tail := by
  rcases trailing with rfl | ⟨rest, rfl⟩ <;> rfl

theorem read?_whole (digits : ∀ digit ∈ whole, Text.isDigit digit = true) (nonempty : whole ≠ [])
    (trailing : Trailing tail) :
    read? (whole ++ tail) = (readExponent? tail).map fun exponent =>
      ⟨digitsValue whole, exponent⟩ := by
  unfold read?
  rw [List.takeWhile_append_of_pos digits, List.dropWhile_append_of_pos digits,
    takeWhile_trailing trailing, dropWhile_trailing trailing, splitFraction_trailing trailing]
  simp [nonempty]

theorem read?_point (digits : ∀ digit ∈ whole, Text.isDigit digit = true) (nonempty : whole ≠ [])
    (digits' : ∀ digit ∈ fraction, Text.isDigit digit = true) (trailing : Trailing tail) :
    read? (whole ++ '.' :: (fraction ++ tail)) = (readExponent? tail).map fun exponent =>
      ⟨digitsValue (whole ++ fraction), exponent - fraction.length⟩ := by
  have point (rest : List Char) : ('.' :: rest).takeWhile Text.isDigit = [] ∧
      ('.' :: rest).dropWhile Text.isDigit = '.' :: rest := ⟨rfl, rfl⟩
  unfold read?
  rw [List.takeWhile_append_of_pos digits, List.dropWhile_append_of_pos digits, (point _).1,
    (point _).2, splitFraction, List.takeWhile_append_of_pos digits',
    List.dropWhile_append_of_pos digits', takeWhile_trailing trailing,
    dropWhile_trailing trailing]
  simp [nonempty]

/-- Digits without an exponent. -/
theorem read?_integer (digits : ∀ digit ∈ whole, Text.isDigit digit = true)
    (nonempty : whole ≠ []) : read? whole = some ⟨digitsValue whole, 0⟩ := by
  have reads := read?_whole digits nonempty (.inl rfl)
  rw [List.append_nil] at reads
  exact reads

theorem read?_fraction (digits : ∀ digit ∈ whole, Text.isDigit digit = true)
    (nonempty : whole ≠ []) (digits' : ∀ digit ∈ fraction, Text.isDigit digit = true) :
    read? (whole ++ '.' :: fraction) =
      some ⟨digitsValue (whole ++ fraction), -fraction.length⟩ := by
  have reads := read?_point digits nonempty digits' (.inl rfl)
  rw [List.append_nil] at reads
  rw [reads, readExponent?, Option.map_some, zero_sub]

/-- The digits of an exponent are all read, as long as it stays near the bound. -/
theorem exponentValue_toDigits {value : ℕ} (small : value < 10 * exponentBound) :
    exponentValue (Nat.toDigits 10 value) = value := by
  induction value using Nat.strongRecOn with
  | ind value ih =>
    rw [Nat.toDigits_eq_if (by norm_num)]
    split
    · next digit =>
      show 10 * 0 + digitValue (Nat.digitChar value) = value
      rw [digitValue_digitChar digit, mul_zero, zero_add]
    · have front := ih (value / 10) (by omega) (by omega)
      rw [exponentValue] at front
      rw [exponentValue, List.foldl_append, front, List.foldl_cons, List.foldl_nil,
        if_pos (by omega), digitValue_digitChar (Nat.mod_lt value (by norm_num))]
      omega

theorem readExponent?_signed {exponent : ℤ} (small : exponent.natAbs < 10 * exponentBound) :
    readExponent? ('e' :: (if exponent < 0 then '-' else '+') :: Nat.toDigits 10 exponent.natAbs) =
      some exponent := by
  have digits : readExponentDigits? (Nat.toDigits 10 exponent.natAbs) = some exponent.natAbs := by
    have nonempty : Nat.toDigits 10 exponent.natAbs ≠ [] := Nat.toDigits_ne_nil
    have all : (Nat.toDigits 10 exponent.natAbs).all Text.isDigit = true :=
      List.all_eq_true.mpr fun _ => isDigit_of_mem_toDigits
    simp [readExponentDigits?, nonempty, all, exponentValue_toDigits small]
  split
  · next negative =>
    show (readExponentDigits? _).map (fun value => -Int.ofNat value) = some exponent
    rw [digits, Option.map_some, Int.ofNat_eq_natCast]
    congr 1
    omega
  · next nonneg =>
    show (readExponentDigits? _).map Int.ofNat = some exponent
    rw [digits, Option.map_some, Int.ofNat_eq_natCast]
    congr 1
    omega

/-! ## Reading what was written -/

theorem digitsValue_digitText (decimal : Decimal) :
    digitsValue decimal.digitText = decimal.digits :=
  digitsValue_toDigits _

theorem isDigit_of_mem_digitText {decimal : Decimal} {digit : Char}
    (member : digit ∈ decimal.digitText) : Text.isDigit digit = true :=
  isDigit_of_mem_toDigits member

theorem isDigit_of_mem_zeros (count : ℕ) {digit : Char}
    (member : digit ∈ List.replicate count '0') : Text.isDigit digit = true := by
  rw [List.eq_of_mem_replicate member]
  rfl

theorem length_digitText_pos (decimal : Decimal) : 0 < decimal.digitText.length :=
  List.length_pos_of_ne_nil Nat.toDigits_ne_nil

theorem pointPlace_eq (decimal : Decimal) :
    decimal.pointPlace = decimal.digitText.length + decimal.exponent := rfl

/-- The point stands between the digits. -/
theorem read?_inside {decimal : Decimal} (negative : decimal.exponent < 0)
    (inside : 0 < decimal.pointPlace) :
    read? (decimal.digitText.take decimal.pointPlace.toNat ++
      '.' :: decimal.digitText.drop decimal.pointPlace.toNat) = some decimal := by
  have place := decimal.pointPlace_eq
  have front : ∀ digit ∈ decimal.digitText.take decimal.pointPlace.toNat,
      Text.isDigit digit = true :=
    fun _ member => isDigit_of_mem_digitText (List.mem_of_mem_take member)
  have back : ∀ digit ∈ decimal.digitText.drop decimal.pointPlace.toNat,
      Text.isDigit digit = true :=
    fun _ member => isDigit_of_mem_digitText (List.mem_of_mem_drop member)
  have nonempty : decimal.digitText.take decimal.pointPlace.toNat ≠ [] := by
    have length_pos := decimal.length_digitText_pos
    rw [← List.length_pos_iff, List.length_take]
    omega
  rw [read?_fraction front nonempty back, List.take_append_drop, digitsValue_digitText,
    List.length_drop]
  congr 2
  omega

/-- The point stands before the digits, which zeros fill up. -/
theorem read?_before {decimal : Decimal} (before : decimal.pointPlace ≤ 0) :
    read? ('0' :: '.' :: (List.replicate (-decimal.pointPlace).toNat '0' ++ decimal.digitText)) =
      some decimal := by
  have place := decimal.pointPlace_eq
  have front : ∀ digit ∈ ['0'], Text.isDigit digit = true := fun _ => isDigit_of_mem_zeros 1
  have back : ∀ digit ∈ List.replicate (-decimal.pointPlace).toNat '0' ++ decimal.digitText,
      Text.isDigit digit = true :=
    List.forall_mem_append.mpr
      ⟨fun _ => isDigit_of_mem_zeros _, fun _ => isDigit_of_mem_digitText⟩
  have zeros : ['0'] ++ (List.replicate (-decimal.pointPlace).toNat '0' ++ decimal.digitText) =
      List.replicate ((-decimal.pointPlace).toNat + 1) '0' ++ decimal.digitText := by
    rw [List.replicate_succ]
    rfl
  refine (read?_fraction front (List.cons_ne_nil _ _) back).trans ?_
  rw [zeros, digitsValue_zeros_append, digitsValue_digitText, List.length_append,
    List.length_replicate]
  congr 2
  omega

/-- All places of a decimal are read back as a decimal of the same value. -/
theorem read?_positional (decimal : Decimal) :
    ∃ back, read? decimal.positional.toList = some back ∧ back.value = decimal.value := by
  unfold positional
  dsimp only
  split
  · next nonneg =>
    have digits : ∀ digit ∈ decimal.digitText ++ List.replicate decimal.exponent.toNat '0',
        Text.isDigit digit = true :=
      List.forall_mem_append.mpr
        ⟨fun _ => isDigit_of_mem_digitText, fun _ => isDigit_of_mem_zeros _⟩
    have nonempty := List.append_ne_nil_of_left_ne_nil
      (List.length_pos_iff.mp decimal.length_digitText_pos)
      (List.replicate decimal.exponent.toNat '0')
    refine ⟨_, by rw [String.toList_ofList]; exact read?_integer digits nonempty, ?_⟩
    simp only [value]
    rw [digitsValue_append_zeros, digitsValue_digitText, Nat.cast_mul, Nat.cast_pow, Nat.cast_ofNat,
      zpow_zero, mul_one, zpow_of_nonneg 10 nonneg]
  next negative =>
  refine ⟨decimal, ?_, rfl⟩
  split
  · next inside =>
    rw [String.toList_ofList]
    exact read?_inside (by omega) inside
  · next before =>
    rw [String.toList_ofList]
    exact read?_before (by omega)

/-- One digit before the point and an exponent are read back as the same decimal. -/
theorem read?_scientific {decimal : Decimal}
    (small : (decimal.pointPlace - 1).natAbs < 10 * exponentBound) :
    read? decimal.scientific.toList = some decimal := by
  have place := decimal.pointPlace_eq
  have value := decimal.digitsValue_digitText
  have digits : ∀ digit ∈ decimal.digitText, Text.isDigit digit = true :=
    fun _ => isDigit_of_mem_digitText
  have exponent := readExponent?_signed small
  unfold scientific
  dsimp only
  rw [String.toList_ofList]
  rcases text : decimal.digitText with _ | ⟨first, _ | ⟨second, rest⟩⟩
  · exact absurd text Nat.toDigits_ne_nil
  · rw [text] at digits value place
    rw [read?_whole digits (List.cons_ne_nil _ _) (.inr ⟨_, rfl⟩), exponent, value]
    rw [List.length_singleton] at place
    rw [Option.map_some]
    congr 2
    omega
  · rw [text] at digits value place
    have front : ∀ digit ∈ [first], Text.isDigit digit = true := by
      intro digit member
      exact digits digit (List.mem_of_mem_take (i := 1) member)
    have back : ∀ digit ∈ second :: rest, Text.isDigit digit = true :=
      fun digit member => digits digit (List.mem_cons_of_mem _ member)
    have reads := read?_point front (List.cons_ne_nil _ _) back
      (.inr ⟨(if decimal.pointPlace - 1 < 0 then '-' else '+') ::
        Nat.toDigits 10 (decimal.pointPlace - 1).natAbs, rfl⟩)
    refine reads.trans ?_
    rw [exponent, List.singleton_append, value, Option.map_some]
    rw [List.length_cons] at place
    congr 2
    push_cast at place ⊢
    omega

/-! ## The place of the point -/

theorem digitText_bounds {decimal : Decimal} (nonzero : decimal.digits ≠ 0) :
    10 ^ (decimal.digitText.length - 1) ≤ decimal.digits ∧
      decimal.digits < 10 ^ decimal.digitText.length := by
  have length_pos := decimal.length_digitText_pos
  refine ⟨?_, (Nat.length_toDigits_le_iff (by norm_num) length_pos).mp le_rfl⟩
  by_contra below
  rcases Nat.eq_zero_or_pos (decimal.digitText.length - 1) with single | more
  · rw [single] at below
    exact below (Nat.one_le_iff_ne_zero.mpr nonzero)
  · have shorter : decimal.digitText.length ≤ decimal.digitText.length - 1 :=
      (Nat.length_toDigits_le_iff (by norm_num) more).mpr (Nat.lt_of_not_le below)
    omega

/-- The value of a decimal has as many digits before the point as the place of the point says. -/
theorem pointPlace_bounds {decimal : Decimal} (nonzero : decimal.digits ≠ 0) :
    10 ^ (decimal.pointPlace - 1) ≤ decimal.value ∧ decimal.value < 10 ^ decimal.pointPlace := by
  have length_pos := decimal.length_digitText_pos
  obtain ⟨above, below⟩ := digitText_bounds nonzero
  have first : decimal.pointPlace - 1 =
      (decimal.digitText.length - 1 : ℕ) + decimal.exponent := by
    unfold pointPlace
    rw [Int.ofNat_eq_natCast]
    omega
  have place := decimal.pointPlace_eq
  rw [first, place, zpow_add₀ (by norm_num), zpow_add₀ (by norm_num), zpow_natCast, zpow_natCast,
    value]
  constructor
  · gcongr
    exact_mod_cast above
  · gcongr
    exact_mod_cast below

/-- A power of ten tells where the point stands. -/
theorem pow_le_value_iff {decimal : Decimal} (nonzero : decimal.digits ≠ 0) (power : ℤ) :
    10 ^ power ≤ decimal.value ↔ power < decimal.pointPlace := by
  obtain ⟨above, below⟩ := pointPlace_bounds nonzero
  constructor
  · intro le
    exact (zpow_lt_zpow_iff_right₀ (by norm_num)).mp (le.trans_lt below)
  · intro lt
    exact (zpow_le_zpow_right₀ (by norm_num) (by omega)).trans above

/-- A decimal that is rounded to a number has a short exponent. -/
theorem pointPlace_small {decimal : Decimal} (pos : 0 < nearest decimal.value)
    (finite : nearest decimal.value < infinityBits) :
    (decimal.pointPlace - 1).natAbs < 10 * exponentBound := by
  have nonzero : decimal.digits ≠ 0 := by
    intro zero
    simp [value, zero, nearest] at pos
  obtain ⟨above, below⟩ := pointPlace_bounds nonzero
  have high := lt_of_nearest_lt finite
  have low := le_of_nearest_pos decimal.value_nonneg pos
  have last : decimal.pointPlace - 1 < (309 : ℕ) := by
    have powers : 2 ^ 1024 < 10 ^ 309 := by decide +kernel
    rw [← zpow_lt_zpow_iff_right₀ (a := (10 : ℚ)) (by norm_num), zpow_natCast]
    calc (10 : ℚ) ^ (decimal.pointPlace - 1) ≤ decimal.value := above
      _ < 2 ^ 1024 := high
      _ < 10 ^ 309 := by exact_mod_cast powers
  have first : -(324 : ℕ) < decimal.pointPlace := by
    have powers : 2 ^ 1075 ≤ 10 ^ 324 := by decide +kernel
    rw [← zpow_lt_zpow_iff_right₀ (a := (10 : ℚ)) (by norm_num), zpow_neg, zpow_natCast]
    calc ((10 : ℚ) ^ 324)⁻¹ ≤ (2 ^ 1075)⁻¹ := by
          refine inv_anti₀ (by positivity) ?_
          exact_mod_cast powers
      _ = 2 ^ (-(1075 : ℕ) : ℤ) := by rw [zpow_neg, zpow_natCast]
      _ ≤ decimal.value := low
      _ < 10 ^ decimal.pointPlace := below
  have bound : exponentBound = 65536 := rfl
  omega

/-! ## Texts that are shown -/

/-- Whether a decimal with this many digits before the point is shown with all its places. -/
def showsAllPlaces (pointPlace : ℤ) : Bool :=
  -5 ≤ pointPlace && pointPlace ≤ 21

/-- A decimal as it is shown: with all places, if they are few enough. -/
def shown (decimal : Decimal) : String :=
  if showsAllPlaces decimal.pointPlace then decimal.positional else decimal.scientific

theorem read?_shown {decimal : Decimal} (pos : 0 < nearest decimal.value)
    (finite : nearest decimal.value < infinityBits) :
    ∃ back, read? decimal.shown.toList = some back ∧ back.value = decimal.value := by
  unfold shown
  split
  · exact decimal.read?_positional
  · exact ⟨decimal, read?_scientific (pointPlace_small pos finite), rfl⟩

end Decimal
end Number
end Scriptlet
