import Scriptlet.Proofs.Numbers.Shortest
import Scriptlet.Store.Display

/-!
# Numbers as keys

A number is used as a key by its text. The text of an integer below the bound of the indices is
that of the index, both zeros being written alike, and no other number has such a text. Different
numbers have different texts.
-/

namespace Scriptlet
namespace Number

variable {x y : Float}

/-! ## Texts of different numbers -/

/-- Equal numbers have the same text, which both zeros have. -/
theorem text_eq_of_beq (equal : x == y) : text x = text y := by
  obtain ⟨rfl, -⟩ | ⟨⟨_, _, zero⟩, ⟨_, _, zero'⟩⟩ := beq_iff.mp equal
  · rfl
  · rw [text_of_zero zero, text_of_zero zero']

theorem text_of_nan (isNaN : parts x = .nan) : text x = "NaN" := by
  rw [text, isNaN]

theorem text_of_infinite {negative : Bool} (isInfinite : parts x = .infinite negative) :
    text x = if negative then "-Infinity" else "Infinity" := by
  rw [text, isInfinite]

/-- Finite numbers that are written alike are equal. -/
theorem beq_of_parts {negative negative' : Bool} {mantissa mantissa' : ℕ}
    {exponent exponent' : ℤ} (isFinite : parts x = .finite negative mantissa exponent)
    (isFinite' : parts y = .finite negative' mantissa' exponent') (same : text x = text y) :
    x == y := by
  have told := signedBits?_text isFinite
  rw [same, signedBits?_text isFinite', Option.some.injEq, Prod.mk.injEq] at told
  obtain ⟨signs, bits⟩ := told
  obtain ⟨rfl, rfl⟩ := (representable_of_parts isFinite').eq_of_nearest_eq
    (representable_of_parts isFinite) bits
  rw [beq_iff]
  rcases Nat.eq_zero_or_pos mantissa' with rfl | pos
  · exact .inr ⟨⟨_, _, isFinite⟩, ⟨_, _, isFinite'⟩⟩
  · obtain rfl : negative' = negative := by simpa [pos] using signs
    exact .inl ⟨eq_of_parts_eq (isFinite.trans isFinite'.symm), by simp [isFinite]⟩

/-- The text of a number that is not finite is no decimal. -/
theorem isSome_signedBits?_iff : (signedBits? (text x)).isSome ↔ IsFinite x := by
  constructor
  · intro told
    cases shape : parts x with
    | nan =>
      rw [text_of_nan shape] at told
      cases told
    | infinite negative =>
      rw [text_of_infinite shape] at told
      cases negative <;> cases told
    | finite negative mantissa exponent => exact ⟨_, _, _, shape⟩
  · rintro ⟨negative, mantissa, exponent, isFinite⟩
    rw [signedBits?_text isFinite]
    rfl

theorem parts_eq_of_text_eq (notFinite : ¬ IsFinite x) (notFinite' : ¬ IsFinite y)
    (same : text x = text y) : parts x = parts y := by
  rw [IsFinite] at notFinite notFinite'
  cases shape : parts x with
  | finite negative mantissa exponent => exact absurd ⟨_, _, _, shape⟩ notFinite
  | nan =>
    cases shape' : parts y with
    | finite negative mantissa exponent => exact absurd ⟨_, _, _, shape'⟩ notFinite'
    | nan => rfl
    | infinite negative =>
      rw [text_of_nan shape, text_of_infinite shape'] at same
      cases negative <;> exact absurd same (by decide)
  | infinite negative =>
    cases shape' : parts y with
    | finite negative mantissa exponent => exact absurd ⟨_, _, _, shape'⟩ notFinite'
    | nan =>
      rw [text_of_infinite shape, text_of_nan shape'] at same
      cases negative <;> exact absurd same (by decide)
    | infinite negative' =>
      rw [text_of_infinite shape, text_of_infinite shape'] at same
      have signs : negative = negative' := by
        revert same
        cases negative <;> cases negative' <;> decide
      rw [signs]

/-- Only equal numbers are written alike, apart from those that are none. -/
theorem beq_of_text_eq (same : text x = text y) : x == y ∨ x.isNaN ∧ y.isNaN := by
  have both : IsFinite x ↔ IsFinite y := by
    rw [← isSome_signedBits?_iff, same, isSome_signedBits?_iff]
  by_cases isFinite : IsFinite x
  · obtain ⟨_, _, _, shape⟩ := isFinite
    obtain ⟨_, _, _, shape'⟩ := both.mp ⟨_, _, _, shape⟩
    exact .inl (beq_of_parts shape shape' same)
  have shapes := parts_eq_of_text_eq isFinite (both.not.mp isFinite) same
  by_cases nan : parts x = .nan
  · exact .inr ⟨isNaN_iff.mpr nan, isNaN_iff.mpr (shapes.symm.trans nan)⟩
  · exact .inl (beq_iff.mpr (.inl ⟨eq_of_parts_eq shapes, nan⟩))

/-- Numbers are written alike if they are equal, or both are none. -/
theorem text_eq_iff : text x = text y ↔ x == y ∨ x.isNaN ∧ y.isNaN := by
  refine ⟨beq_of_text_eq, ?_⟩
  rintro (equal | ⟨isNaN, isNaN'⟩)
  · exact text_eq_of_beq equal
  · rw [text_of_nan (isNaN_iff.mp isNaN), text_of_nan (isNaN_iff.mp isNaN')]

/-! ## Texts of indices -/

theorem signedBits?_toString (value : ℕ) :
    signedBits? (toString value) = some (false, nearest value) := by
  have digits : ∀ digit ∈ Nat.toDigits 10 value, Text.isDigit digit = true :=
    fun _ => Decimal.isDigit_of_mem_toDigits
  have reads : Decimal.read? (toString value).toList = some ⟨value, 0⟩ := by
    rw [Nat.toString_eq_ofList_toDigits, String.toList_ofList,
      Decimal.read?_integer digits Nat.toDigits_ne_nil, Decimal.digitsValue_toDigits]
  rw [signedBits?_of_read reads, Decimal.value, zpow_zero, mul_one]

/-- A number that is written like a natural number with at most 53 places has its value. -/
theorem value?_of_text_eq {value : ℕ} (below : value < 2 ^ 53) (same : text x = toString value) :
    value? x = some (value : ℚ) := by
  have told : signedBits? (text x) = some (false, nearest value) := by
    rw [same, signedBits?_toString]
  obtain ⟨negative, mantissa, exponent, isFinite⟩ := isSome_signedBits?_iff.mp (by rw [told]; rfl)
  rw [signedBits?_text isFinite, Option.some.injEq, Prod.mk.injEq] at told
  obtain ⟨sign, bits⟩ := told
  obtain ⟨mantissa', exponent', isNumber, -, isValue⟩ := exists_representable below
  rw [← isValue] at bits
  obtain ⟨rfl, rfl⟩ := (representable_of_parts isFinite).eq_of_nearest_eq isNumber bits
  rw [value?_of_parts isFinite, isValue]
  cases negative with
  | false => rfl
  | true =>
    obtain rfl : mantissa = 0 := by simpa using sign
    rw [Nat.cast_zero, zero_mul] at isValue
    rw [← isValue]
    simp [signed]

/-- A number that has the value of a natural number with at most 53 places is written like it. -/
theorem text_of_value? {value : ℕ} (below : value < 2 ^ 53)
    (isValue : value? x = some (value : ℚ)) : text x = toString value := by
  obtain ⟨negative, mantissa, exponent, isFinite⟩ := isFinite_of_value? isValue
  rw [value?_of_parts isFinite, Option.some.injEq] at isValue
  rcases Nat.eq_zero_or_pos mantissa with rfl | pos
  · obtain rfl : value = 0 := by
      cases negative <;> simpa [signed, eq_comm] using isValue
    exact text_of_zero isFinite
  have size_pos : (0 : ℚ) < mantissa * 2 ^ exponent := by positivity
  cases negative with
  | false =>
    have value_pos : (0 : ℚ) < value := isValue ▸ size_pos
    rw [text_of_parts isFinite pos]
    exact shown_shortest_integer isValue (by exact_mod_cast value_pos) below
  | true =>
    have nonneg : (0 : ℚ) ≤ value := Nat.cast_nonneg value
    rw [signed, if_pos rfl] at isValue
    linarith

end Number

open Number

/-- The key that a number stands for. -/
structure NumberKey (store : Store) (x : Float) : Prop where
  /-- It is an index just if the number is that integer, which both zeros are. -/
  index : ∀ index : ℕ, Key.ofText (store.display (.number x)) = .index index ↔
    index < 4294967295 ∧ value? x = some (index : ℚ)
  /-- Every other number is a name. -/
  name : ∀ name, Key.ofText (store.display (.number x)) = .name name ↔
    name = store.display (.number x) ∧ ∀ index < 4294967295, value? x ≠ some ((index : ℕ) : ℚ)
  /-- Numbers stand for the same key if they are equal, or both are none. -/
  same : ∀ (other : Store) (y : Float),
    Key.ofText (store.display (.number x)) = Key.ofText (other.display (.number y)) ↔
      x == y ∨ x.isNaN ∧ y.isNaN

theorem Store.display_number (store : Store) (x : Float) : store.display (.number x) = text x :=
  rfl

theorem Number.ofText_text_eq_index_iff {x : Float} {index : ℕ} :
    Key.ofText (text x) = .index index ↔
      index < 4294967295 ∧ value? x = some (index : ℚ) := by
  rw [Key.ofText_eq_index_iff]
  refine and_congr_right fun below => ?_
  have few : index < 2 ^ 53 := lt_trans below (by norm_num [Key.indexBound])
  exact ⟨value?_of_text_eq few, text_of_value? few⟩

/-- A number that is used as a key reaches the slot of its value: it is an index just if it is an
integer from zero to `2 ^ 32 - 2`, and no two different numbers stand for the same key. -/
theorem numbers_reach_their_slots (store : Store) (x : Float) : NumberKey store x where
  index index := ofText_text_eq_index_iff
  name name := by
    rw [Key.ofText_eq_name_iff, Store.display_number]
    simp only [ofText_text_eq_index_iff, not_exists, not_and, ne_eq]
  same other y := by
    rw [Key.ofText_injective.eq_iff]
    exact text_eq_iff

/-- Minus zero is an index, and `2 ^ 32 - 1` is the first integer that is none. -/
example :
    Key.ofText (text (Float.ofBits 0x8000000000000000)) = .index 0 ∧
      Key.ofText (text (Float.ofBits 0x41EFFFFFFFC00000)) = .index 4294967294 ∧
      Key.ofText (text (Float.ofBits 0x41EFFFFFFFE00000)) = .name "4294967295" := by
  decide +kernel

end Scriptlet
