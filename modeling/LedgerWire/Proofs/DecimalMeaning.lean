import LedgerWire.Proofs.Decimals
import Mathlib.Algebra.Order.Field.Power
import Mathlib.Algebra.Order.Field.Rat
import Mathlib.Tactic.FieldSimp
import Mathlib.Tactic.Linarith
import Mathlib.Tactic.Positivity
import Mathlib.Tactic.Ring

/-!
# What decimals stand for

Every decimal and every spelling stands for a rational number. Reading a spelling
keeps the number, and there is one reduced decimal at most for each number. Magnitudes
are split into sixteen digits and a power of ten, and compared by these.
-/

namespace LedgerWire.Decimal

open Text (wholeValue wholeDigits)

/-! ## The number of a decimal -/

/-- The number that a decimal stands for. -/
def toRat (number : Decimal) : ℚ :=
  signed number.negative
    ((wholeValue number.digits : ℚ) * 10 ^ (number.exponent + 1 - number.digits.length))

private theorem signed_zero (negative : Bool) : signed negative (0 : ℚ) = 0 := by
  cases negative <;> simp [signed]

theorem toRat_zero : zero.toRat = 0 := by
  simp [toRat, zero, signed, wholeValue]

/-- Zeros around the digits do not change the number. -/
theorem toRat_ofDigits (negative : Bool) (digits : List (Fin 10)) (exponent : Int) :
    (ofDigits negative digits exponent).toRat =
      signed negative ((wholeValue digits : ℚ) * 10 ^ (exponent + 1 - digits.length)) := by
  obtain ⟨after, spelled⟩ := exists_significant digits
  have value := congrArg wholeValue spelled
  have size := congrArg List.length spelled
  unfold ofDigits
  dsimp only
  generalize trimEnd (digits.dropWhile (· == 0)) = significant at value size ⊢
  generalize (digits.takeWhile (· == 0)).length = before at value size ⊢
  rw [Text.wholeValue_append, Text.wholeValue_append, Text.wholeValue_zeros,
    Text.wholeValue_zeros, Nat.zero_mul, Nat.zero_add, Nat.add_zero,
    List.length_replicate] at value
  rw [List.length_append, List.length_append, List.length_replicate, List.length_replicate] at size
  by_cases none : significant = []
  · have isZero : wholeValue digits = 0 := by
      rw [value, none]
      exact Nat.zero_mul _
    rw [if_pos (by simp [none]), toRat_zero, isZero, Nat.cast_zero, zero_mul, signed_zero]
  · have place : exponent - before + 1 - significant.length =
        (after : Int) + (exponent + 1 - digits.length) := by omega
    rw [if_neg (by simpa using none), toRat, place, zpow_add₀ (by norm_num), zpow_natCast, value]
    push_cast
    rw [mul_assoc]

/-! ## One decimal for each number -/

/-- A whole number that does not end in a zero does not reach a multiple of a greater
power of ten. -/
theorem not_lt_of_scaled_eq {left right : Nat} {low high : Int} (last : left % 10 ≠ 0)
    (same : (left : ℚ) * 10 ^ low = right * 10 ^ high) : ¬ low < high := by
  intro order
  obtain ⟨step, rfl⟩ : ∃ step : Nat, high = low + 1 + step := ⟨(high - low - 1).toNat, by omega⟩
  have positive : (0 : ℚ) < 10 ^ low := by positivity
  rw [zpow_add₀ (by norm_num), zpow_add₀ (by norm_num), zpow_one, zpow_natCast] at same
  have scaled : (left : ℚ) = ((10 * (10 ^ step * right) : Nat) : ℚ) := by
    apply mul_right_cancel₀ positive.ne'
    rw [same]
    push_cast
    ring
  have divided : left = 10 * (10 ^ step * right) := by exact_mod_cast scaled
  omega

/-- A whole number whose last digit is not zero and a power of ten are determined by
their product. -/
theorem eq_of_scaled_eq {left right : Nat} {low high : Int} (leftLast : left % 10 ≠ 0)
    (rightLast : right % 10 ≠ 0) (same : (left : ℚ) * 10 ^ low = right * 10 ^ high) :
    left = right ∧ low = high := by
  have notLess := not_lt_of_scaled_eq leftLast same
  have notMore := not_lt_of_scaled_eq rightLast same.symm
  obtain rfl : low = high := by omega
  have positive : (0 : ℚ) < 10 ^ low := by positivity
  have whole := mul_right_cancel₀ positive.ne' same
  exact ⟨by exact_mod_cast whole, rfl⟩

/-- The digits of a reduced decimal end in none that is zero. -/
theorem Reduced.wholeValue_mod_ten {number : Decimal} (reduced : number.Reduced)
    (nonzero : number.digits ≠ []) : wholeValue number.digits % 10 ≠ 0 := by
  have joined := List.dropLast_append_getLast nonzero
  have last := reduced.last_ne_zero
  rw [List.getLast?_eq_some_getLast nonzero] at last
  have differs : (number.digits.getLast nonzero).val ≠ 0 := by
    intro isZero
    exact last (congrArg some (Fin.ext isZero))
  rw [← joined, Text.wholeValue_append]
  have single : wholeValue [number.digits.getLast nonzero] =
      (number.digits.getLast nonzero).val := by
    simp [wholeValue, Radix.value_cons]
  have bound := (number.digits.getLast nonzero).isLt
  rw [single, List.length_singleton, pow_one]
  omega

private theorem Reduced.digits_eq {left right : Decimal} (leftReduced : left.Reduced)
    (rightReduced : right.Reduced)
    (same : wholeValue left.digits = wholeValue right.digits) :
    left.digits = right.digits := by
  have restored {number : Decimal} (reduced : number.Reduced) :
      wholeDigits (wholeValue number.digits) = number.digits :=
    (Text.wholeDigits_wholeValue number.digits).trans (span_of_head reduced.head_ne_zero).2
  rw [← restored leftReduced, same, restored rightReduced]

/-- The magnitude of a reduced decimal that is not zero is positive. -/
theorem Reduced.magnitude_pos {number : Decimal} (reduced : number.Reduced)
    (nonzero : number.digits ≠ []) :
    (0 : ℚ) < wholeValue number.digits * 10 ^ (number.exponent + 1 - number.digits.length) := by
  have ending := reduced.wholeValue_mod_ten nonzero
  have positive : 0 < wholeValue number.digits := by omega
  positivity

theorem Reduced.toRat_eq_zero_iff {number : Decimal} (reduced : number.Reduced) :
    number.toRat = 0 ↔ number = zero := by
  constructor
  · intro isZero
    by_contra differs
    have nonzero : number.digits ≠ [] := fun none => differs (reduced.eq_zero none)
    have positive := reduced.magnitude_pos nonzero
    unfold toRat signed at isZero
    split at isZero
    · linarith
    · linarith
  · rintro rfl
    exact toRat_zero

/-- Positive magnitudes with a sign are equal only if their signs and they are. -/
theorem eq_of_signed_eq {left right : ℚ} {leftSign rightSign : Bool} (leftPositive : 0 < left)
    (rightPositive : 0 < right) (same : signed leftSign left = signed rightSign right) :
    leftSign = rightSign ∧ left = right := by
  cases leftSign with
  | false =>
      cases rightSign with
      | false =>
          exact ⟨rfl, same⟩
      | true =>
          have opposite : left = -right := same
          linarith
  | true =>
      cases rightSign with
      | false =>
          have opposite : -left = right := same
          linarith
      | true =>
          exact ⟨rfl, neg_inj.mp same⟩

/-- Reduced decimals that stand for the same number are the same. -/
theorem Reduced.eq_of_toRat_eq {left right : Decimal} (leftReduced : left.Reduced)
    (rightReduced : right.Reduced) (same : left.toRat = right.toRat) : left = right := by
  by_cases leftZero : left.digits = []
  · rw [leftReduced.eq_zero leftZero, toRat_zero] at same
    rw [leftReduced.eq_zero leftZero, (rightReduced.toRat_eq_zero_iff.mp same.symm)]
  · by_cases rightZero : right.digits = []
    · rw [rightReduced.eq_zero rightZero, toRat_zero] at same
      rw [leftReduced.toRat_eq_zero_iff.mp same, rightReduced.eq_zero rightZero]
    · obtain ⟨signs, magnitudes⟩ := eq_of_signed_eq (leftReduced.magnitude_pos leftZero)
        (rightReduced.magnitude_pos rightZero) same
      obtain ⟨values, powers⟩ := eq_of_scaled_eq (leftReduced.wholeValue_mod_ten leftZero)
        (rightReduced.wholeValue_mod_ten rightZero) magnitudes
      have digits := leftReduced.digits_eq rightReduced values
      have exponents : left.exponent = right.exponent := by
        rw [digits] at powers
        omega
      obtain ⟨leftSign, leftDigits, leftExponent⟩ := left
      obtain ⟨rightSign, rightDigits, rightExponent⟩ := right
      cases signs
      cases digits
      cases exponents
      rfl

/-! ## Magnitudes -/

/-- The number without its sign. -/
def magnitude (number : Decimal) : Decimal := { number with negative := false }

theorem Reduced.magnitude {number : Decimal} (reduced : number.Reduced) :
    number.magnitude.Reduced where
  head_ne_zero := reduced.head_ne_zero
  last_ne_zero := reduced.last_ne_zero
  eq_zero none := by
    rw [reduced.eq_zero none]
    rfl

private theorem abs_signed {size : ℚ} (nonnegative : 0 ≤ size) (negative : Bool) :
    |signed negative size| = size := by
  cases negative with
  | false =>
      exact abs_of_nonneg nonnegative
  | true =>
      exact (abs_neg size).trans (abs_of_nonneg nonnegative)

theorem toRat_magnitude (number : Decimal) : number.magnitude.toRat = |number.toRat| := by
  have nonnegative : (0 : ℚ) ≤
      wholeValue number.digits * 10 ^ (number.exponent + 1 - number.digits.length) := by
    positivity
  exact (abs_signed nonnegative number.negative).symm

theorem Reduced.magnitude_eq_iff {number : Decimal} (reduced : number.Reduced) :
    number.magnitude = number ↔ 0 ≤ number.toRat := by
  constructor
  · intro same
    rw [← same, toRat_magnitude]
    exact abs_nonneg _
  · intro nonnegative
    apply reduced.magnitude.eq_of_toRat_eq reduced
    rw [toRat_magnitude, abs_of_nonneg nonnegative]

/-- A decimal that is split into a whole number and a power of ten stands for their
product. -/
theorem abs_toRat_of_mantissa16? {number : Decimal} {mantissa : Nat} {exponent : Int}
    (found : number.mantissa16? = some (mantissa, exponent)) :
    |number.toRat| = mantissa * 10 ^ exponent := by
  obtain ⟨⟨few, _⟩, rfl, rfl⟩ := mantissa16?_eq_some.mp found
  have place : number.exponent + 1 - number.digits.length =
      ((16 - number.precision : Nat) : Int) + (number.exponent - 15) := by
    unfold precision at few ⊢
    omega
  rw [← toRat_magnitude, toRat, padded, Text.wholeValue_append, Text.wholeValue_zeros,
    List.length_replicate]
  change ((wholeValue number.digits : Nat) : ℚ) *
    10 ^ (number.exponent + 1 - number.digits.length) = _
  rw [place, zpow_add₀ (by norm_num), zpow_natCast]
  push_cast
  ring

/-- The magnitude of a decimal is made of the whole number and the power of ten into
which it is split. -/
theorem magnitude_of_mantissa16? {number : Decimal} (reduced : number.Reduced) {mantissa : Nat}
    {exponent : Int} (found : number.mantissa16? = some (mantissa, exponent)) :
    ofParts false mantissa exponent = number.magnitude := by
  by_cases none : number.digits = []
  · have isZero : number = zero := reduced.eq_zero none
    subst isZero
    have noDigits : 0 = mantissa := (mantissa16?_eq_some.mp found).2.1
    rw [← noDigits]
    rfl
  · exact ofParts_of_mantissa16? reduced.magnitude none found

/-! ## Order of scaled numbers -/

section Scaled

variable {count left right : Nat} {low high : Int} (leftLow : 10 ^ count ≤ left)
  (leftHigh : left < 10 ^ (count + 1)) (rightLow : 10 ^ count ≤ right)
  (rightHigh : right < 10 ^ (count + 1))

include leftHigh rightLow

/-- Of numbers with as many digits one with a smaller power of ten is smaller. -/
theorem scaled_lt_of_lt (less : low < high) : (left : ℚ) * 10 ^ low < right * 10 ^ high := by
  have leftReal : (left : ℚ) < 10 ^ (count + 1) := by exact_mod_cast leftHigh
  have rightReal : (10 : ℚ) ^ count ≤ right := by exact_mod_cast rightLow
  have powers : (10 : ℚ) ^ (low + 1) ≤ 10 ^ high := zpow_le_zpow_right₀ (by norm_num) less
  calc (left : ℚ) * 10 ^ low < 10 ^ (count + 1) * 10 ^ low := by gcongr
    _ = 10 ^ count * 10 ^ (low + 1) := by
        rw [zpow_add₀ (by norm_num), zpow_one]
        ring
    _ ≤ right * 10 ^ high := by gcongr

include leftLow rightHigh

/-- Numbers with as many digits are compared by their powers of ten, and by the digits
if these are the same. -/
theorem scaled_lt_iff :
    (left : ℚ) * 10 ^ low < right * 10 ^ high ↔ low < high ∨ low = high ∧ left < right := by
  rcases lt_trichotomy low high with less | same | more
  · simp only [less, true_or, iff_true]
    exact scaled_lt_of_lt leftHigh rightLow less
  · subst same
    have positive : (0 : ℚ) < 10 ^ low := by positivity
    rw [mul_lt_mul_iff_of_pos_right positive, Nat.cast_lt]
    simp
  · have greater := scaled_lt_of_lt rightHigh leftLow more
    have notLess : ¬ (left : ℚ) * 10 ^ low < right * 10 ^ high := not_lt.mpr greater.le
    simp only [notLess, false_iff]
    omega

end Scaled

/-! ## The number of a spelling -/

/-- The number that a spelling denotes. -/
def Spelling.toRat (spelling : Spelling) : ℚ :=
  signed (Sign.isMinus spelling.sign)
    ((wholeValue spelling.whole +
        wholeValue (spelling.fraction.getD []) / 10 ^ (spelling.fraction.getD []).length) *
      10 ^ spelling.exponent)

/-- What is read from a spelling stands for the number that it denotes. -/
theorem toRat_number (spelling : Spelling) : spelling.number.toRat = spelling.toRat := by
  have size : spelling.digits.length =
      spelling.whole.length + (spelling.fraction.getD []).length := List.length_append
  have place : spelling.place + 1 - spelling.digits.length =
      spelling.exponent - ((spelling.fraction.getD []).length : Int) := by
    unfold Spelling.place
    omega
  rw [Spelling.number, toRat_ofDigits, place, Spelling.digits, Text.wholeValue_append,
    Spelling.toRat, zpow_sub₀ (by norm_num), zpow_natCast]
  push_cast
  congr 1
  field_simp

/-- The power of ten of the first digit that is not zero. -/
def Spelling.leadingPlace (spelling : Spelling) : Int :=
  spelling.place - (spelling.digits.takeWhile (· == 0)).length

theorem number_of_zeros {spelling : Spelling} (zeros : ∀ digit ∈ spelling.digits, digit = 0) :
    spelling.number = zero := by
  rw [Spelling.number, ofDigits, (trimEnd_eq_nil_iff spelling.digits).mpr zeros]
  rfl

theorem exponent_number {spelling : Spelling} (nonzero : ¬ ∀ digit ∈ spelling.digits, digit = 0) :
    spelling.number.exponent = spelling.leadingPlace := by
  have significant := mt (trimEnd_eq_nil_iff spelling.digits).mp nonzero
  rw [Spelling.number, ofDigits, if_neg (by simpa using significant)]
  rfl

end LedgerWire.Decimal
