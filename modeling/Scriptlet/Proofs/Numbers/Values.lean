import Mathlib
import Scriptlet.Proofs.Numbers.Rounding

/-!
# The values of numbers

What the parts of a number stand for agrees with the model of floating point that Lean has: the
same mantissa, the same exponent, the same sign. A finite number has an exact value, which is
representable, and numbers are equal if their parts are the same or both are zero. The lemmas about
that model come with no smaller part of Mathlib than the whole of it.
-/

namespace Scriptlet
namespace Number

open Float.Model
open Float.Model.UnpackedFloat (Sign unpackExponent unpackMantissa unpackSign)

/-- The exact value of a number that is finite. -/
def value? (x : Float) : Option ℚ :=
  match x.toModel.unpack with
  | .zero _ => some 0
  | .finite sign mantissa exponent _ => some (sign.apply mantissa * 2 ^ exponent)
  | .infinity _ | .notANumber => none

/-! ## Fields of the bits -/

section

variable (bits : BitVec Format.binary64.numBits)

theorem toNat_unpackExponent :
    (unpackExponent bits).toNat = bits.toNat / 2 ^ 52 % 2 ^ 11 := by
  rw [UnpackedFloat.unpackExponent_def, BitVec.extractLsb'_toNat, Nat.shiftRight_eq_div_pow]

theorem toNat_unpackMantissa : (unpackMantissa bits).toNat = bits.toNat % 2 ^ 52 := by
  rw [UnpackedFloat.unpackMantissa_def, BitVec.extractLsb'_toNat, Nat.shiftRight_zero]

theorem toNat_unpackSign : (unpackSign bits).toNat = bits.toNat / 2 ^ 63 % 2 := by
  rw [UnpackedFloat.unpackSign_def, BitVec.extractLsb'_toNat, Nat.shiftRight_eq_div_pow]
  rfl

end

/-- The sign of a number. -/
def signOf (negative : Bool) : Sign :=
  if negative then .negative else .positive

/-- What such parts are in Lean's model. -/
def Parts.unpacked : Parts → UnpackedFloat
  | .nan => .notANumber
  | .infinite negative => .infinity (signOf negative)
  | .finite negative mantissa exponent =>
    if pos : 0 < mantissa then .finite (signOf negative) mantissa exponent pos
    else .zero (signOf negative)

theorem ofBitVec_unpackSign (bits : BitVec Format.binary64.numBits) :
    Sign.ofBitVec (unpackSign bits) = signOf (bits.toNat / 2 ^ 63 % 2 == 1) := by
  have sign : unpackSign bits = 0#1 ↔ bits.toNat / 2 ^ 63 % 2 = 0 := by
    rw [← BitVec.toNat_inj, toNat_unpackSign]
    rfl
  unfold Sign.ofBitVec signOf
  rcases Nat.mod_two_eq_zero_or_one (bits.toNat / 2 ^ 63) with zero | one
  · rw [if_pos (sign.mpr zero), zero]
    rfl
  · rw [if_neg (by rw [sign, one]; exact one_ne_zero), one]
    rfl

theorem toNat_append_unpackMantissa (bits : BitVec Format.binary64.numBits) :
    (1#1 ++ unpackMantissa bits).toNat = 2 ^ 52 + bits.toNat % 2 ^ 52 := by
  have below : bits.toNat % 2 ^ 52 < 2 ^ 52 := Nat.mod_lt _ (by norm_num)
  have joined := Nat.two_pow_add_eq_or_of_lt below 1
  rw [mul_one] at joined
  rw [BitVec.toNat_append, toNat_unpackMantissa, joined]
  rfl

theorem unpack_eq_partsOfBits (bits : BitVec Format.binary64.numBits) :
    UnpackedFloat.unpack Format.binary64 bits = (partsOfBits bits.toNat).unpacked := by
  have sign := ofBitVec_unpackSign bits
  have exponent := toNat_unpackExponent bits
  have mantissa := toNat_unpackMantissa bits
  have isTop : unpackExponent bits = -1#_ ↔ bits.toNat / 2 ^ 52 % 2 ^ 11 = 2047 := by
    rw [← BitVec.toNat_inj, exponent]
    rfl
  have isBottom : unpackExponent bits = 0#_ ↔ bits.toNat / 2 ^ 52 % 2 ^ 11 = 0 := by
    rw [← BitVec.toNat_inj, exponent]
    rfl
  have isZero : unpackMantissa bits = 0#_ ↔ bits.toNat % 2 ^ 52 = 0 := by
    rw [← BitVec.toNat_inj, mantissa]
    rfl
  unfold UnpackedFloat.unpack partsOfBits
  simp only [sign, isTop, isBottom, isZero, exponent, mantissa, Nat.pow_eq,
    Int.ofNat_eq_natCast]
  have bias : (Format.binary64.exponentBias : ℤ) = 1023 := rfl
  by_cases top : bits.toNat / 2 ^ 52 % 2 ^ 11 = 2047
  · simp only [if_pos top]
    split <;> rfl
  simp only [if_neg top]
  by_cases bottom : bits.toNat / 2 ^ 52 % 2 ^ 11 = 0
  · simp only [if_pos bottom, Parts.unpacked]
    by_cases zero : bits.toNat % 2 ^ 52 = 0
    · rw [dif_pos zero, dif_neg (by omega)]
    · rw [dif_neg zero, dif_pos (Nat.pos_of_ne_zero zero), UnpackedFloat.finite.injEq, bias]
      exact ⟨rfl, rfl, by omega⟩
  · simp only [if_neg bottom, Parts.unpacked]
    rw [dif_pos (by positivity), UnpackedFloat.finite.injEq, bias]
    exact ⟨rfl, toNat_append_unpackMantissa bits, by omega⟩

/-- The parts of a number are what Lean's model says of it. -/
theorem unpack_eq_parts (x : Float) : x.toModel.unpack = (parts x).unpacked :=
  unpack_eq_partsOfBits x.toModel.toBits.toBitVec

/-! ## Finite numbers -/

/-- A size with a sign. -/
def signed (negative : Bool) (size : ℚ) : ℚ :=
  if negative then -size else size

/-- Whether a number has parts with an exponent. -/
def IsFinite (x : Float) : Prop :=
  ∃ negative mantissa exponent, parts x = .finite negative mantissa exponent

/-- Whether a number is one of the two zeros. -/
def IsZero (x : Float) : Prop :=
  ∃ negative exponent, parts x = .finite negative 0 exponent

variable {x y : Float} {negative : Bool} {mantissa : ℕ} {exponent : ℤ}

/-- The exact value of a finite number, from its parts. -/
theorem value?_of_parts (isFinite : parts x = .finite negative mantissa exponent) :
    value? x = some (signed negative (mantissa * 2 ^ exponent)) := by
  unfold value?
  rw [unpack_eq_parts, isFinite, Parts.unpacked]
  by_cases pos : 0 < mantissa
  · rw [dif_pos pos]
    cases negative <;> simp [signOf, Sign.apply, signed]
  · obtain rfl : mantissa = 0 := by omega
    rw [dif_neg pos]
    cases negative <;> simp [signed]

theorem isFinite_of_value? {value : ℚ} (isValue : value? x = some value) : IsFinite x := by
  rw [value?, unpack_eq_parts] at isValue
  cases shape : parts x with
  | nan =>
    rw [shape] at isValue
    cases isValue
  | infinite negative =>
    rw [shape] at isValue
    cases isValue
  | finite negative mantissa exponent => exact ⟨negative, mantissa, exponent, shape⟩

theorem partsOfBits_eq_finite {bits : ℕ}
    (isFinite : partsOfBits bits = .finite negative mantissa exponent) :
    negative = (bits / 2 ^ 63 % 2 == 1) ∧
      (bits / 2 ^ 52 % 2 ^ 11 = 0 ∧ mantissa = bits % 2 ^ 52 ∧ exponent = -1074 ∨
        bits / 2 ^ 52 % 2 ^ 11 ≠ 0 ∧ bits / 2 ^ 52 % 2 ^ 11 ≠ 2047 ∧
          mantissa = 2 ^ 52 + bits % 2 ^ 52 ∧
          exponent = (bits / 2 ^ 52 % 2 ^ 11 : ℕ) - 1075) := by
  unfold partsOfBits at isFinite
  simp only [Nat.pow_eq, Int.ofNat_eq_natCast] at isFinite
  split at isFinite
  · split at isFinite <;> cases isFinite
  next notTop =>
  split at isFinite
  · next bottom =>
    cases isFinite
    exact ⟨rfl, .inl ⟨bottom, rfl, rfl⟩⟩
  · next notBottom =>
    cases isFinite
    exact ⟨rfl, .inr ⟨notBottom, notTop, rfl, rfl⟩⟩

theorem representable_of_parts (isFinite : parts x = .finite negative mantissa exponent) :
    Representable mantissa exponent := by
  obtain ⟨-, ⟨bottom, rfl, rfl⟩ | ⟨notBottom, notTop, rfl, rfl⟩⟩ := partsOfBits_eq_finite isFinite
  · exact ⟨by omega, .inr rfl, le_rfl, by omega⟩
  · exact ⟨by omega, .inl (by omega), by omega, by omega⟩

/-! ## Equality -/

theorem unpack_inj : x.toModel.unpack = y.toModel.unpack ↔ x = y := by
  have models : x.toModel.unpack = y.toModel.unpack ↔
      x.toModel.toBits.toBitVec = y.toModel.toBits.toBitVec :=
    UnpackedFloat.unpack_inj_of_valid x.toModel.valid y.toModel.valid
  rw [models, UInt64.toBitVec_inj]
  exact Float.toBits_inj

theorem eq_of_parts_eq (same : parts x = parts y) : x = y := by
  rw [← unpack_inj, unpack_eq_parts, unpack_eq_parts, same]

theorem Parts.unpacked_eq_notANumber_iff {parts : Parts} :
    parts.unpacked = .notANumber ↔ parts = .nan := by
  cases parts with
  | nan => exact ⟨fun _ => rfl, fun _ => rfl⟩
  | infinite negative => simp [Parts.unpacked]
  | finite negative mantissa exponent =>
    rw [Parts.unpacked]
    split <;> simp

theorem unpack_eq_notANumber_iff : x.toModel.unpack = .notANumber ↔ parts x = .nan := by
  rw [unpack_eq_parts, Parts.unpacked_eq_notANumber_iff]

theorem isNaN_iff : x.isNaN ↔ parts x = .nan :=
  UnpackedFloat.isNaN_iff.trans unpack_eq_notANumber_iff

theorem isZero_of_unpack {sign : Sign} (zero : x.toModel.unpack = .zero sign) : IsZero x := by
  rw [unpack_eq_parts] at zero
  cases shape : parts x with
  | nan =>
    rw [shape] at zero
    cases zero
  | infinite negative =>
    rw [shape] at zero
    cases zero
  | finite negative mantissa exponent =>
    rw [shape, Parts.unpacked] at zero
    split at zero
    · cases zero
    · next nonpos =>
      obtain rfl : mantissa = 0 := by omega
      exact ⟨negative, exponent, shape⟩

/-- Numbers are equal if they are the same, unless they are none, or if both are zero. -/
theorem beq_iff : x == y ↔ x = y ∧ parts x ≠ .nan ∨ IsZero x ∧ IsZero y := by
  have model := UnpackedFloat.beq_iff_ne_notANumber_and_eq x.toModel.unpack y.toModel.unpack
  constructor
  · intro equal
    obtain ⟨isNumber, -, same | ⟨zero, zero'⟩ | ⟨zero, zero'⟩⟩ := model.mp equal
    · exact .inl ⟨unpack_inj.mp same, unpack_eq_notANumber_iff.not.mp isNumber⟩
    · exact .inr ⟨isZero_of_unpack zero, isZero_of_unpack zero'⟩
    · exact .inr ⟨isZero_of_unpack zero, isZero_of_unpack zero'⟩
  · rintro (⟨rfl, isNumber⟩ | ⟨⟨_, _, zero⟩, ⟨_, _, zero'⟩⟩)
    · have isNumber := unpack_eq_notANumber_iff.not.mpr isNumber
      exact model.mpr ⟨isNumber, isNumber, .inl rfl⟩
    · show UnpackedFloat.beq _ _ = true
      rw [unpack_eq_parts, unpack_eq_parts, zero, zero']
      rfl

/-! ## Numbers from their parts -/

/-- Bits that stand for a number are kept as they are. -/
theorem parts_ofBits {bits : UInt64} (isNumber : partsOfBits bits.toNat ≠ .nan) :
    parts (Float.ofBits bits) = partsOfBits bits.toNat := by
  have same : UnpackedFloat.pack Format.binary64
      (UnpackedFloat.unpack Format.binary64 bits.toBitVec) = bits.toBitVec := by
    rw [UnpackedFloat.pack_unpack, if_neg]
    intro isNaN
    obtain ⟨top, fraction⟩ := of_decide_eq_true isNaN
    refine isNumber (Parts.unpacked_eq_notANumber_iff.mp ?_)
    refine (unpack_eq_partsOfBits bits.toBitVec).symm.trans ?_
    rw [UnpackedFloat.unpack, if_pos top, if_neg fraction]
  show partsOfBits (UnpackedFloat.pack Format.binary64
      (UnpackedFloat.unpack Format.binary64 bits.toBitVec)).toNat = _
  rw [same]
  rfl

/-- Mantissa and exponent of a number are read off its bits. -/
theorem Representable.partsOfBits_eq (isNumber : Representable mantissa exponent)
    (negative : Bool) :
    partsOfBits (if negative then 2 ^ 63 + nearest (mantissa * 2 ^ exponent)
      else nearest (mantissa * 2 ^ exponent)) = .finite negative mantissa exponent := by
  rw [isNumber.nearest_eq]
  obtain ⟨below, full, smallest, largest⟩ := isNumber
  unfold partsOfBits
  simp only [Nat.pow_eq, Int.ofNat_eq_natCast]
  cases negative with
  | false =>
    rw [if_neg Bool.false_ne_true, if_neg (by omega)]
    split <;> rw [Parts.finite.injEq, beq_eq_false_iff_ne] <;> omega
  | true =>
    rw [if_pos rfl, if_neg (by omega)]
    split <;> rw [Parts.finite.injEq, beq_iff_eq] <;> omega

theorem parts_ofMagnitude (negative : Bool) (isNumber : Representable mantissa exponent) :
    parts (ofMagnitude negative (nearest (mantissa * 2 ^ exponent))) =
      .finite negative mantissa exponent := by
  have read := isNumber.partsOfBits_eq negative
  have fits : (UInt64.ofNat (if negative then Nat.pow 2 63 + nearest (mantissa * 2 ^ exponent)
      else nearest (mantissa * 2 ^ exponent))).toNat =
        if negative then 2 ^ 63 + nearest (mantissa * 2 ^ exponent)
        else nearest (mantissa * 2 ^ exponent) := by
    have bound := nearest_le (mantissa * 2 ^ exponent)
    rw [infinityBits_eq] at bound
    rw [UInt64.toNat_ofNat', Nat.pow_eq, Nat.mod_eq_of_lt]
    split <;> omega
  rw [ofMagnitude, parts_ofBits (by rw [fits, read]; nofun), fits, read]

/-! ## The opposite number -/

/-- The same parts with the other sign. -/
def Parts.opposite : Parts → Parts
  | .nan => .nan
  | .infinite negative => .infinite !negative
  | .finite negative mantissa exponent => .finite (!negative) mantissa exponent

theorem Parts.unpacked_opposite (parts : Parts) :
    parts.opposite.unpacked = parts.unpacked.neg := by
  cases parts with
  | nan => rfl
  | infinite negative => cases negative <;> rfl
  | finite negative mantissa exponent =>
    simp only [Parts.opposite, Parts.unpacked]
    split <;> cases negative <;> rfl

/-- Negation turns the sign around and changes nothing else. -/
theorem neg_eq_of_parts (isOpposite : parts y = (parts x).opposite) : x.neg = y := by
  have models : x.toModel.unpack.neg = y.toModel.unpack := by
    rw [unpack_eq_parts, unpack_eq_parts, isOpposite, Parts.unpacked_opposite]
  have bits : UnpackedFloat.pack Format.binary64 x.toModel.unpack.neg =
      y.toModel.toBits.toBitVec := by
    rw [models]
    exact UnpackedFloat.pack_unpack_of_valid y.toModel.valid
  rw [← Float.toBits_inj, ← UInt64.toBitVec_inj]
  exact bits

end Number
end Scriptlet
