import Mathlib.Data.List.Induction
import Mathlib.Tactic.Common
import Scriptlet.Object.Key

/-!
# Keys and their texts

Digits without a leading zero are what their value is written as, and a value is written
without a leading zero. So a key is the index of exactly one text, and no text is lost when
its shape is found.

* `Key.ofText_eq_index_iff`: which texts have the shape of an index;
* `Key.isDecimal_iff`: a number has one decimal spelling;
* `key_shapes_are_canonical`: what the shape of a text is, and that it keeps the text.
-/

namespace Scriptlet

/-! ## Decimal digits -/

namespace Number.Decimal

theorem digitsValue_concat (digits : List Char) (last : Char) :
    digitsValue (digits ++ [last]) = 10 * digitsValue digits + digitValue last := by
  simp [digitsValue, joinedValue_eq, placeValue, Nat.add_comm]

theorem digitsValue_singleton (digit : Char) : digitsValue [digit] = digitValue digit := by
  have value := digitsValue_concat [] digit
  rw [List.nil_append] at value
  rw [value]
  exact Nat.zero_add _

theorem digitValue_lt {digit : Char} (is : Text.isDigit digit = true) : digitValue digit < 10 := by
  obtain ⟨-, above⟩ := Char.isDigit_iff_toNat.mp is
  have nine : '9'.toNat = 57 := rfl
  have zero : '0'.toNat = 48 := rfl
  unfold digitValue
  omega

theorem digitChar_digitValue {digit : Char} (is : Text.isDigit digit = true) :
    Nat.digitChar (digitValue digit) = digit := by
  obtain ⟨below, -⟩ := Char.isDigit_iff_toNat.mp is
  have zero : '0'.toNat = 48 := rfl
  apply Char.toNat_inj.mp
  rw [Nat.toNat_digitChar_of_lt_ten (digitValue_lt is)]
  unfold digitValue
  omega

theorem digitValue_digitChar {value : Nat} (lt : value < 10) :
    digitValue (Nat.digitChar value) = value :=
  Nat.toNat_digitChar_sub_48_of_lt_ten lt

theorem digitsValue_toDigits (value : Nat) : digitsValue (Nat.toDigits 10 value) = value := by
  induction value using Nat.strongRecOn with
  | ind value ih =>
    rw [Nat.toDigits_eq_if (by decide)]
    split
    · next small => rw [digitsValue_singleton, digitValue_digitChar small]
    · rw [digitsValue_concat, ih (value / 10) (by omega),
        digitValue_digitChar (Nat.mod_lt value (by decide))]
      omega

/-- Reading back what was written tells different values apart. -/
theorem toString_injective : Function.Injective (toString : Nat → String) := by
  intro value other same
  rw [Nat.toString_eq_ofList_toDigits, Nat.toString_eq_ofList_toDigits] at same
  rw [← digitsValue_toDigits value, String.ofList_injective same, digitsValue_toDigits]

end Number.Decimal

open Number.Decimal

/-! ## Canonical digits -/

namespace Key

theorem isCanonical_cons_iff {first : Char} {rest : List Char} :
    isCanonical (first :: rest) = true ↔
      first = '0' ∧ rest = [] ∨
        first ≠ '0' ∧ ∀ digit ∈ first :: rest, Text.isDigit digit = true := by
  by_cases zero : first = '0'
  · subst zero
    cases rest with
    | nil => simp [isCanonical]
    | cons second rest => simp [isCanonical]
  · simp [isCanonical, zero]

/-- The last digit can be anything, unless a zero comes before it. -/
theorem isCanonical_concat_iff {first last : Char} {rest : List Char} :
    isCanonical (first :: rest ++ [last]) = true ↔
      first ≠ '0' ∧ isCanonical (first :: rest) = true ∧ Text.isDigit last = true := by
  rw [List.cons_append, isCanonical_cons_iff, isCanonical_cons_iff]
  constructor
  · rintro (⟨-, none⟩ | ⟨nonzero, digits⟩)
    · exact absurd none (by simp)
    · refine ⟨nonzero, .inr ⟨nonzero, fun digit member => digits digit ?_⟩, digits last ?_⟩
      · exact List.mem_append_left [last] member
      · exact List.mem_cons_of_mem first (List.mem_concat_self)
  · rintro ⟨nonzero, ⟨zero, -⟩ | ⟨-, digits⟩, isLast⟩
    · exact absurd zero nonzero
    · refine .inr ⟨nonzero, fun digit member => ?_⟩
      rcases List.mem_append.mp (show digit ∈ (first :: rest) ++ [last] from member) with
        before | after
      · exact digits digit before
      · rw [List.mem_singleton.mp after]
        exact isLast

/-- Canonical digits are what their value is written as. -/
theorem toDigits_digitsValue {digits : List Char} (canonical : isCanonical digits = true) :
    Nat.toDigits 10 (digitsValue digits) = digits := by
  induction digits using List.reverseRecOn with
  | nil => cases canonical
  | append_singleton before last ih =>
    cases before with
    | nil =>
      have isLast : Text.isDigit last = true := by
        rcases isCanonical_cons_iff.mp canonical with ⟨rfl, -⟩ | ⟨-, digits⟩
        · rfl
        · exact digits last List.mem_cons_self
      rw [List.nil_append, digitsValue_singleton, Nat.toDigits_of_lt_base (digitValue_lt isLast),
        digitChar_digitValue isLast]
    | cons first rest =>
      obtain ⟨nonzero, canonical, isLast⟩ := isCanonical_concat_iff.mp canonical
      have written := ih canonical
      -- a value of zero would be written with a leading zero
      have positive : 0 < digitsValue (first :: rest) := by
        rw [Nat.pos_iff_ne_zero]
        intro zero
        rw [zero, Nat.toDigits_zero] at written
        exact nonzero (List.cons.inj written).1.symm
      rw [digitsValue_concat,
        ← Nat.toDigits_append_toDigits (by decide) positive (digitValue_lt isLast), written,
        Nat.toDigits_of_lt_base (digitValue_lt isLast), digitChar_digitValue isLast]

theorem isCanonical_toDigits (value : Nat) : isCanonical (Nat.toDigits 10 value) = true := by
  induction value using Nat.strongRecOn with
  | ind value ih =>
    rw [Nat.toDigits_eq_if (by decide)]
    have isDigit {digit : Nat} (lt : digit < 10) : Text.isDigit digit.digitChar = true :=
      Nat.isDigit_of_mem_toDigits (by decide) (Nat.le_refl 10)
        (Nat.toDigits_of_lt_base lt ▸ List.mem_singleton_self _)
    split
    · next small =>
      rw [isCanonical_cons_iff]
      by_cases zero : value.digitChar = '0'
      · exact .inl ⟨zero, rfl⟩
      · exact .inr ⟨zero, List.forall_mem_singleton.mpr (isDigit small)⟩
    · next large =>
      have canonical := ih (value / 10) (by omega)
      have back := digitsValue_toDigits (value / 10)
      cases written : Nat.toDigits 10 (value / 10) with
      | nil => exact absurd written Nat.toDigits_ne_nil
      | cons first rest =>
        rw [written] at canonical back
        refine isCanonical_concat_iff.mpr
          ⟨fun zero => ?_, canonical, isDigit (Nat.mod_lt value (by decide))⟩
        -- canonical digits that begin with a zero have the value zero
        rcases isCanonical_cons_iff.mp canonical with ⟨-, rfl⟩ | ⟨nonzero, -⟩
        · subst zero
          rw [digitsValue_singleton] at back
          have none : digitValue '0' = 0 := rfl
          omega
        · exact nonzero zero

/-! ## Shapes -/

/-- A text has the shape of an index if it is what a number below the bound is written as. -/
theorem ofText_eq_index_iff {text : String} {index : Nat} :
    ofText text = .index index ↔ index < indexBound ∧ text = toString index := by
  unfold ofText
  dsimp only
  constructor
  · intro is
    split at is
    · next shape =>
      obtain ⟨canonical, below⟩ := (Bool.and_eq_true _ _).mp shape
      cases is
      refine ⟨of_decide_eq_true below, ?_⟩
      rw [Nat.toString_eq_ofList_toDigits, toDigits_digitsValue canonical, String.ofList_toList]
    · cases is
  · rintro ⟨below, rfl⟩
    simp [isCanonical_toDigits, digitsValue_toDigits, below]

theorem ofText_toString {index : Nat} (below : index < indexBound) :
    ofText (toString index) = .index index :=
  ofText_eq_index_iff.mpr ⟨below, rfl⟩

theorem lt_of_ofText {text : String} {index : Nat} (is : ofText text = .index index) :
    index < indexBound :=
  (ofText_eq_index_iff.mp is).1

/-- A name is kept as it is. -/
theorem eq_of_ofText {text name : String} (is : ofText text = .name name) : text = name := by
  unfold ofText at is
  dsimp only at is
  split at is
  · cases is
  · exact Key.name.inj is

/-- Finding the shape of a text loses nothing. -/
theorem text_ofText (text : String) : (ofText text).text = text := by
  cases is : ofText text with
  | index index => exact (ofText_eq_index_iff.mp is).2.symm
  | name name => exact (eq_of_ofText is).symm

theorem ofText_injective : Function.Injective ofText :=
  Function.LeftInverse.injective text_ofText

theorem ofText_eq_name_iff {text name : String} :
    ofText text = .name name ↔ name = text ∧ ¬ ∃ index, ofText text = .index index := by
  constructor
  · intro is
    refine ⟨(eq_of_ofText is).symm, ?_⟩
    rintro ⟨index, other⟩
    cases is.symm.trans other
  · rintro ⟨rfl, never⟩
    cases is : ofText name with
    | index index => exact absurd ⟨index, is⟩ never
    | name other => rw [eq_of_ofText is]

/-! ## Decimal spellings -/

/-- How a number is spelled in decimal: with digits alone, and with a zero in front only if
there is nothing else. -/
structure IsDecimal (text : String) (number : Nat) : Prop where
  nonempty : text ≠ ""
  digits : ∀ char ∈ text.toList, '0' ≤ char ∧ char ≤ '9'
  leading : text.toList.head? = some '0' → text = "0"
  value : Nat.ofDigitChars 10 text.toList 0 = number

theorem ofDigitChars_eq_digitsValue (digits : List Char) :
    Nat.ofDigitChars 10 digits 0 = digitsValue digits := by
  induction digits using List.reverseRecOn with
  | nil => rfl
  | append_singleton before last ih =>
    rw [Nat.ofDigitChars_append, ih, Nat.ofDigitChars_cons, Nat.ofDigitChars_nil,
      digitsValue_concat]
    rfl

theorem isDigit_iff {char : Char} : Text.isDigit char = true ↔ '0' ≤ char ∧ char ≤ '9' := by
  simp only [Text.isDigit, Char.isDigit, Bool.and_eq_true, decide_eq_true_eq, Char.le_def]

/-- The characters of a decimal spelling are canonical digits. -/
theorem IsDecimal.isCanonical {text : String} {number : Nat} (decimal : IsDecimal text number) :
    isCanonical text.toList = true := by
  have digits := decimal.digits
  have leading := decimal.leading
  cases chars : text.toList with
  | nil => exact absurd (String.toList_eq_nil_iff.mp chars) decimal.nonempty
  | cons first rest =>
    rw [chars] at digits leading
    refine isCanonical_cons_iff.mpr ?_
    by_cases zero : first = '0'
    · subst zero
      obtain rfl := leading rfl
      exact .inl ⟨rfl, (List.cons.inj chars).2.symm⟩
    · exact .inr ⟨zero, fun digit member => isDigit_iff.mpr (digits digit member)⟩

theorem isDecimal_toString (number : Nat) : IsDecimal (toString number) number := by
  rw [Nat.toString_eq_ofList_toDigits]
  constructor
  case nonempty => exact fun empty => Nat.toDigits_ne_nil (String.ofList_eq_empty_iff.mp empty)
  case digits =>
    intro char member
    rw [String.toList_ofList] at member
    exact isDigit_iff.mp (Nat.isDigit_of_mem_toDigits (by decide) (Nat.le_refl 10) member)
  case leading =>
    rw [String.toList_ofList]
    intro zero
    obtain ⟨rest, written⟩ := List.head?_eq_some_iff.mp zero
    have canonical := isCanonical_toDigits number
    rw [written] at canonical ⊢
    rcases isCanonical_cons_iff.mp canonical with ⟨-, rfl⟩ | ⟨nonzero, -⟩
    · rfl
    · exact absurd rfl nonzero
  case value => rw [String.toList_ofList, Nat.ofDigitChars_ten_toDigits]

/-- A number has one spelling, the text that it is written as. -/
theorem isDecimal_iff {text : String} {number : Nat} :
    IsDecimal text number ↔ text = toString number := by
  constructor
  · intro decimal
    rw [← decimal.value, ofDigitChars_eq_digitsValue, Nat.toString_eq_ofList_toDigits,
      toDigits_digitsValue decimal.isCanonical, String.ofList_toList]
  · rintro rfl
    exact isDecimal_toString number

end Key

/-- A key is an index exactly if it is the decimal spelling of a number below `2 ^ 32 - 1`, and a
name, kept as it is, exactly if it is not. Its text comes back from its shape, so no two keys
have one shape. -/
theorem key_shapes_are_canonical (text : String) :
    (∀ index, Key.ofText text = .index index ↔ index < 4294967295 ∧ Key.IsDecimal text index) ∧
      (∀ name, Key.ofText text = .name name ↔
        name = text ∧ ¬ ∃ index, index < 4294967295 ∧ Key.IsDecimal text index) ∧
      (Key.ofText text).text = text ∧
      ∀ other, Key.ofText text = Key.ofText other ↔ text = other := by
  have shape (index : Nat) :
      Key.ofText text = .index index ↔ index < 4294967295 ∧ Key.IsDecimal text index := by
    rw [Key.ofText_eq_index_iff, Key.isDecimal_iff]
    rfl
  refine ⟨shape, fun name => ?_, Key.text_ofText text, fun other => Key.ofText_injective.eq_iff⟩
  simp only [Key.ofText_eq_name_iff, shape]

/-- The last index, the number after it, and a zero too many. -/
example : Key.ofText "4294967294" = .index 4294967294 ∧
    Key.ofText "4294967295" = .name "4294967295" ∧ Key.ofText "007" = .name "007" := by
  decide

end Scriptlet
