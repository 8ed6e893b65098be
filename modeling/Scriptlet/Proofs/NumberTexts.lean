import Scriptlet.Proofs.Numbers.Shortest
import Scriptlet.Store.Equality

/-!
# Numbers and their texts

A number is compared with text by reading the text. The text of a number is read back as that
number, whichever way it is written, so a number equals its own text, and no other number does.

* `read?_characters`: what decimals are written with, which trimming leaves alone;
* `ofComparedText_text`: the text of a number is read back;
* `beq_ofComparedText_text`: the text of a number is compared like the number.
-/

namespace Scriptlet
namespace Number

/-! ## Characters of decimals -/

/-- Whether a decimal can be written with the character. -/
def writesDecimal (char : Char) : Bool :=
  Text.isDigit char || char ∈ ['.', 'e', 'E', '+', '-']

theorem writesDecimal_of_isDigit {char : Char} (isDigit : Text.isDigit char = true) :
    writesDecimal char = true := by
  rw [writesDecimal, isDigit, Bool.true_or]

/-- Apart from the marks of an exponent, the characters lie together. -/
theorem code_of_writesDecimal {char : Char} (writes : writesDecimal char = true) :
    43 ≤ char.toNat ∧ char.toNat ≤ 57 ∨ char = 'e' ∨ char = 'E' := by
  rcases Bool.or_eq_true_iff.mp writes with isDigit | isMark
  · obtain ⟨low, high⟩ := Char.isDigit_iff_toNat.mp isDigit
    exact .inl ⟨le_trans (by decide) low, high⟩
  · simp only [decide_eq_true_eq, List.mem_cons, List.not_mem_nil, or_false] at isMark
    rcases isMark with rfl | rfl | rfl | rfl | rfl <;> decide

theorem isWhiteSpace_of_writesDecimal {char : Char} (writes : writesDecimal char = true) :
    Text.isWhiteSpace char = false := by
  rcases code_of_writesDecimal writes with ⟨low, high⟩ | rfl | rfl
  · simp [Text.isWhiteSpace, Text.Ranges.contains, Text.whiteSpaceRanges]
    omega
  · decide +kernel
  · decide +kernel

/-- The words that stand for numbers all have an `n`, which no decimal has. -/
theorem toLower_of_writesDecimal {char : Char} (writes : writesDecimal char = true) :
    char.toLower ≠ 'n' := by
  rcases code_of_writesDecimal writes with ⟨low, high⟩ | rfl | rfl
  · have notUpper : ¬ ('A'.val ≤ char.val ∧ char.val ≤ 'Z'.val) := by
      rintro ⟨above, -⟩
      have above : 65 ≤ char.toNat := UInt32.le_iff_toNat_le.mp above
      omega
    rw [Char.toLower, dif_neg notUpper]
    rintro rfl
    exact absurd high (by decide)
  · decide
  · decide

namespace Decimal

variable {text : List Char} {decimal : Decimal}

theorem readExponentDigits?_characters {value : ℕ}
    (reads : readExponentDigits? text = some value) :
    ∀ char ∈ text, writesDecimal char = true := by
  unfold readExponentDigits? at reads
  split at reads
  · cases reads
  · next isDigits =>
    have all : text.all Text.isDigit = true := by simp_all
    exact fun char member => writesDecimal_of_isDigit (List.all_eq_true.mp all char member)

theorem readExponent?_characters {exponent : ℤ} (reads : readExponent? text = some exponent) :
    ∀ char ∈ text, writesDecimal char = true := by
  unfold readExponent? at reads
  split at reads
  · exact fun _ member => nomatch member
  next mark behind =>
  split at reads
  · next isMark =>
    have first : writesDecimal mark = true := by
      simp only [Bool.or_eq_true, beq_iff_eq] at isMark
      rcases isMark with rfl | rfl <;> rfl
    refine List.forall_mem_cons.mpr ⟨first, ?_⟩
    split at reads
    · obtain ⟨_, digits, -⟩ := Option.map_eq_some_iff.mp reads
      exact List.forall_mem_cons.mpr ⟨rfl, readExponentDigits?_characters digits⟩
    · obtain ⟨_, digits, -⟩ := Option.map_eq_some_iff.mp reads
      exact List.forall_mem_cons.mpr ⟨rfl, readExponentDigits?_characters digits⟩
    · obtain ⟨_, digits, -⟩ := Option.map_eq_some_iff.mp reads
      exact readExponentDigits?_characters digits
  · cases reads

theorem splitFraction_characters
    (rest : ∀ char ∈ (splitFraction text).2, writesDecimal char = true) :
    ∀ char ∈ text, writesDecimal char = true := by
  unfold splitFraction at rest
  split at rest
  · next behind =>
    rw [← List.takeWhile_append_dropWhile (p := Text.isDigit) (l := behind)]
    refine List.forall_mem_cons.mpr ⟨rfl, List.forall_mem_append.mpr ⟨fun char member => ?_, rest⟩⟩
    exact writesDecimal_of_isDigit (List.mem_takeWhile_imp member)
  · exact rest

/-- What is read as a decimal is written with such characters only. -/
theorem read?_characters (reads : read? text = some decimal) :
    ∀ char ∈ text, writesDecimal char = true := by
  unfold read? at reads
  dsimp only at reads
  split at reads
  · cases reads
  obtain ⟨_, exponent, -⟩ := Option.map_eq_some_iff.mp reads
  rw [← List.takeWhile_append_dropWhile (p := Text.isDigit) (l := text)]
  refine List.forall_mem_append.mpr ⟨fun char member => ?_, ?_⟩
  · exact writesDecimal_of_isDigit (List.mem_takeWhile_imp member)
  · exact splitFraction_characters (readExponent?_characters exponent)

end Decimal

theorem trim_of_characters {text : List Char}
    (characters : ∀ char ∈ text, writesDecimal char = true) : trim text = text := by
  have keeps (chars : List Char) (characters : ∀ char ∈ chars, writesDecimal char = true) :
      chars.dropWhile Text.isWhiteSpace = chars := by
    cases chars with
    | nil => rfl
    | cons char rest =>
      have isNone := isWhiteSpace_of_writesDecimal (characters char List.mem_cons_self)
      rw [List.dropWhile_cons_of_neg (by simp [isNone])]
  unfold trim
  rw [keeps text characters, keeps text.reverse (by simpa using characters), List.reverse_reverse]

theorem ofWord?_of_characters {word : List Char}
    (characters : ∀ char ∈ word, writesDecimal char = true) : ofWord? word = none := by
  have missing : 'n' ∉ word.map Char.toLower := by
    intro member
    obtain ⟨char, member, isLower⟩ := List.mem_map.mp member
    exact toLower_of_writesDecimal (characters char member) isLower
  have differs (name : String) (has : 'n' ∈ name.toList) :
      decide (word.map Char.toLower = name.toList) = false :=
    decide_eq_false fun same => missing (same ▸ has)
  unfold ofWord?
  dsimp only
  rw [differs "inf" (by decide +kernel), differs "infinity" (by decide +kernel), Bool.or_self,
    if_neg Bool.false_ne_true, if_neg (of_decide_eq_false (differs "nan" (by decide +kernel)))]

/-! ## Reading -/

section

variable {text : List Char} {decimal : Decimal}

theorem ofUnsigned?_of_read (reads : Decimal.read? text = some decimal) :
    ofUnsigned? text = some (ofMagnitude false (nearest decimal.value)) := by
  rw [ofUnsigned?, ofWord?_of_characters (Decimal.read?_characters reads), Option.none_or, reads,
    Option.map_some, Decimal.nearestBits_eq]

theorem ofText?_of_read (reads : Decimal.read? text = some decimal) :
    ofText? text = some (ofMagnitude false (nearest decimal.value)) := by
  rw [← ofUnsigned?_of_read reads]
  unfold ofText?
  -- what is read as a decimal has no sign
  split
  · cases reads
  · cases reads
  · rfl

end

theorem ofComparedText_of_characters {text : String} {x : Float}
    (characters : ∀ char ∈ text.toList, writesDecimal char = true)
    (reads : ofText? text.toList = some x) : ofComparedText text = x := by
  have nonempty : text.toList ≠ [] := by
    intro isEmpty
    rw [isEmpty] at reads
    cases reads
  unfold ofComparedText
  rw [trim_of_characters characters]
  simp [nonempty, reads]

/-! ## Reading the text of a number -/

variable {x y : Float} {negative : Bool} {mantissa : ℕ} {exponent : ℤ}

theorem ofComparedText_text_zero (isZero : parts x = .finite negative 0 exponent) :
    ofComparedText (text x) == x := by
  have reads : Decimal.read? "0".toList = some ⟨0, 0⟩ := rfl
  have back : parts (ofMagnitude false (nearest (Decimal.mk 0 0).value)) =
      .finite false 0 (-1074) := by
    simp only [Decimal.value, nearest, Nat.cast_zero, zero_mul, if_true]
    decide +kernel
  rw [text_of_zero isZero,
    ofComparedText_of_characters (Decimal.read?_characters reads) (ofText?_of_read reads), beq_iff]
  exact .inr ⟨⟨_, _, back⟩, ⟨_, _, isZero⟩⟩

/-- A number that is not zero is read back with its sign. -/
theorem ofComparedText_text_finite (isFinite : parts x = .finite negative mantissa exponent)
    (pos : 0 < mantissa) : ofComparedText (text x) = x := by
  have isNumber := representable_of_parts isFinite
  obtain ⟨back, reads, isNearest⟩ := read?_shown_shortest isNumber pos
  have size := parts_ofMagnitude false isNumber
  rw [← isNearest] at size
  rw [text_of_parts isFinite pos]
  cases negative with
  | false =>
    have same : ofMagnitude false (nearest back.value) = x :=
      eq_of_parts_eq (size.trans isFinite.symm)
    exact ofComparedText_of_characters (Decimal.read?_characters reads)
      ((ofText?_of_read reads).trans (congrArg some same))
  | true =>
    have minus : ("-" ++ (shortest mantissa exponent).shown).toList =
        '-' :: (shortest mantissa exponent).shown.toList := String.toList_append
    have same : (ofMagnitude false (nearest back.value)).neg = x :=
      neg_eq_of_parts (by rw [size, isFinite]; rfl)
    refine ofComparedText_of_characters ?_ ?_
    · simp only [if_true, minus]
      exact List.forall_mem_cons.mpr ⟨rfl, Decimal.read?_characters reads⟩
    · simp only [if_true, minus]
      rw [ofText?, ofUnsigned?_of_read reads, Option.map_some, same]

theorem ofComparedText_text_infinite (isInfinite : parts x = .infinite negative) :
    ofComparedText (text x) = x := by
  have isText : text x = if negative then "-Infinity" else "Infinity" := by
    rw [text, isInfinite]
  have reads : parts (ofComparedText (if negative then "-Infinity" else "Infinity")) =
      .infinite negative := by
    cases negative <;> decide +kernel
  rw [isText]
  exact eq_of_parts_eq (reads.trans isInfinite.symm)

/-- The text of a number is read back as a number that equals it. -/
theorem ofComparedText_text (isNumber : parts x ≠ .nan) : ofComparedText (text x) == x := by
  have equal (same : ofComparedText (text x) = x) : ofComparedText (text x) == x :=
    beq_iff.mpr (.inl ⟨same, by rwa [same]⟩)
  cases shape : parts x with
  | nan => exact absurd shape isNumber
  | infinite negative => exact equal (ofComparedText_text_infinite shape)
  | finite negative mantissa exponent =>
    rcases Nat.eq_zero_or_pos mantissa with rfl | pos
    · exact ofComparedText_text_zero shape
    · exact equal (ofComparedText_text_finite shape pos)

/-! ## Comparing -/

theorem beq_of_isZero (isZero : IsZero x) : y == x ↔ IsZero y := by
  rw [beq_iff]
  refine ⟨?_, fun isZero' => .inr ⟨isZero', isZero⟩⟩
  rintro (⟨rfl, -⟩ | ⟨isZero', -⟩)
  · exact isZero
  · exact isZero'

/-- Equal numbers are compared alike. -/
theorem beq_congr {back : Float} (equal : back == x) : (y == back) = (y == x) := by
  obtain ⟨rfl, -⟩ | ⟨isZero, isZero'⟩ := beq_iff.mp equal
  · rfl
  · rw [Bool.eq_iff_iff, beq_of_isZero isZero, beq_of_isZero isZero']

theorem beq_of_nan (isNaN : parts x = .nan) : (y == x) = false := by
  rw [Bool.eq_false_iff, ne_eq, beq_iff]
  rintro (⟨rfl, isNumber⟩ | ⟨-, _, _, isZero⟩)
  · exact isNumber isNaN
  · rw [isNaN] at isZero
    cases isZero

/-- Comparing with the text of a number is comparing with that number. -/
theorem beq_ofComparedText_text (x y : Float) : (y == ofComparedText (text x)) = (y == x) := by
  by_cases isNaN : parts x = .nan
  · have isText : text x = "NaN" := by rw [text, isNaN]
    have back : parts (ofComparedText "NaN") = .nan := by decide +kernel
    rw [isText, beq_of_nan back, beq_of_nan isNaN]
  · exact beq_congr (ofComparedText_text isNaN)

end Number

open Number

namespace Store

theorem looseEquals_number_string (store : Store) (x : Float) (text : String) :
    store.looseEquals (.number x) (.string text) = (x == ofComparedText text) :=
  rfl

theorem looseEquals_string_number (store : Store) (text : String) (x : Float) :
    store.looseEquals (.string text) (.number x) = (ofComparedText text == x) :=
  rfl

end Store

/-- A number equals its own text: the text, in whichever form the number is shown, is read back as
a number that equals it, and no other number equals the text. -/
theorem numbers_equal_their_texts (store : Store) (x : Float) (isNumber : ¬ x.isNaN) :
    store.looseEquals (.number x) (.string (text x)) = true ∧
      store.looseEquals (.string (text x)) (.number x) = true ∧
      (ofComparedText (text x) == x) = true ∧
      ∀ y, store.looseEquals (.number y) (.string (text x)) = (y == x) := by
  have isNumber : parts x ≠ .nan := isNaN_iff.not.mp isNumber
  have self : x == x := beq_iff.mpr (.inl ⟨rfl, isNumber⟩)
  have back := ofComparedText_text isNumber
  have others (y : Float) : store.looseEquals (.number y) (.string (text x)) = (y == x) := by
    rw [store.looseEquals_number_string, beq_ofComparedText_text]
  refine ⟨(others x).trans self, ?_, back, others⟩
  rw [store.looseEquals_string_number, back]

/-- The smallest number below zero, which is shown with an exponent. -/
theorem smallest_equals_its_text :
    text (Float.ofBits 0x8000000000000001) = "-5e-324" ∧
      ¬ (Float.ofBits 0x8000000000000001).isNaN ∧
      Store.empty.looseEquals (.number (Float.ofBits 0x8000000000000001)) (.string "-5e-324") =
        true := by
  have isText : text (Float.ofBits 0x8000000000000001) = "-5e-324" := by decide +kernel
  have isNumber : ¬ (Float.ofBits 0x8000000000000001).isNaN := by decide +kernel
  have equal := (numbers_equal_their_texts .empty _ isNumber).1
  rw [isText] at equal
  exact ⟨isText, isNumber, equal⟩

end Scriptlet
