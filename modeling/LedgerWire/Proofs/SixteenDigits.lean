import LedgerWire.Proofs.DecimalTexts

/-!
# Sixteen digits in a word

The whole number of sixteen digits of a decimal is put together in a word of 64 bits,
digit by digit, with zeros behind the last one. Sixteen digits are few enough for
this. What comes out is the magnitude of the decimal as a whole number times a power of
ten, and the decimal is made of the two again.
-/

namespace LedgerWire.Decimal

open Text (wholeValue)

/-! ## Digits in a word -/

/-- The word with a digit behind its own. There is none if 64 bits do not hold the
product by ten, or the sum. -/
def pushed? (word : UInt64) (digit : Fin 10) : Option UInt64 :=
  if word.toNat * 10 < 2 ^ 64 ∧ (word * 10).toNat + digit.val < 2 ^ 64 then
    some (word * 10 + UInt64.ofNat digit.val)
  else
    none

/-- The word of the first sixteen digits, with zeros where there are no more. There is
none if one of the steps leaves the 64 bits. -/
def accumulated? (number : Decimal) : Option UInt64 :=
  (List.range 16).foldlM (fun word place => pushed? word (number.digits.getD place 0)) 0

private theorem exists_pushed {word : UInt64} {digit : Fin 10}
    (bound : word.toNat * 10 + digit.val < 2 ^ 64) :
    ∃ next, pushed? word digit = some next ∧ next.toNat = word.toNat * 10 + digit.val := by
  have product : (word * 10).toNat = word.toNat * 10 := by
    rw [UInt64.toNat_mul]
    exact Nat.mod_eq_of_lt (by change word.toNat * 10 < 2 ^ 64; omega)
  have small : (UInt64.ofNat digit.val).toNat = digit.val :=
    UInt64.toNat_ofNat_of_lt' (by change digit.val < 2 ^ 64; omega)
  refine ⟨word * 10 + UInt64.ofNat digit.val, ?_, ?_⟩
  · rw [pushed?, if_pos ⟨by omega, by rwa [product]⟩]
  · rw [UInt64.toNat_add, product, small, Nat.mod_eq_of_lt bound]

/-- Digits that are put behind a word one by one never leave the 64 bits if the number
that they spell in the end does not. -/
theorem exists_foldlM_pushed {digits : List (Fin 10)} {word : UInt64}
    (bound : word.toNat * 10 ^ digits.length + wholeValue digits < 2 ^ 64) :
    ∃ last, digits.foldlM pushed? word = some last ∧
      last.toNat = word.toNat * 10 ^ digits.length + wholeValue digits := by
  induction digits generalizing word with
  | nil =>
      exact ⟨word, rfl, by simp [wholeValue, Radix.value, Radix.lowValue]⟩
  | cons digit rest inductionHypothesis =>
      have spelled : word.toNat * 10 ^ (digit :: rest).length + wholeValue (digit :: rest) =
          (word.toNat * 10 + digit.val) * 10 ^ rest.length + wholeValue rest := by
        rw [wholeValue, List.map_cons, Radix.value_cons, List.length_map, List.length_cons]
        change _ + (_ + wholeValue rest) = _
        ring
      rw [spelled] at bound
      have first : word.toNat * 10 + digit.val < 2 ^ 64 :=
        calc
          word.toNat * 10 + digit.val ≤ (word.toNat * 10 + digit.val) * 10 ^ rest.length :=
            Nat.le_mul_of_pos_right _ (Nat.pow_pos (by decide))
          _ < 2 ^ 64 := (Nat.le_add_right _ _).trans_lt bound
      obtain ⟨next, pushed, value⟩ := exists_pushed first
      rw [← value] at bound
      obtain ⟨last, folded, total⟩ := inductionHypothesis bound
      refine ⟨last, ?_, ?_⟩
      · rw [List.foldlM_cons, pushed]
        exact folded
      · rw [total, value, spelled]

/-! ## The first sixteen digits -/

/-- The first sixteen digits, with zeros where there are no more. -/
def leading (number : Decimal) : List (Fin 10) :=
  (List.range 16).map fun place => number.digits.getD place 0

private theorem leading_eq_padded {number : Decimal} (few : number.precision ≤ 16) :
    number.leading = number.padded := by
  refine List.ext_getElem ?_ fun place left right => ?_
  · rw [length_padded few, leading, List.length_map, List.length_range]
  · simp only [leading, padded, List.getElem_map, List.getElem_range, List.getElem_append,
      List.getElem_replicate, List.getD_eq_getElem?_getD]
    split
    · rename_i inside
      rw [List.getElem?_eq_getElem inside, Option.getD_some]
    · rename_i outside
      rw [List.getElem?_eq_none (not_lt.mp outside), Option.getD_none]

/-- Sixteen digits are put into a word without leaving its 64 bits, and however many a
decimal has, no others are. -/
theorem exists_accumulated (number : Decimal) :
    ∃ word, number.accumulated? = some word ∧ word.toNat = wholeValue number.leading := by
  have size : number.leading.length = 16 := by
    rw [leading, List.length_map, List.length_range]
  have high : wholeValue number.leading < 10 ^ 16 := by
    have bound := Radix.value_lt (by omega) (Text.map_val_lt number.leading)
    rwa [List.length_map, size] at bound
  have fits : (0 : UInt64).toNat * 10 ^ number.leading.length + wholeValue number.leading =
      wholeValue number.leading := by
    rw [UInt64.toNat_zero, Nat.zero_mul, Nat.zero_add]
  obtain ⟨word, folded, value⟩ :=
    exists_foldlM_pushed (by rw [fits]; exact high.trans (by decide))
  rw [leading, List.foldlM_map] at folded
  exact ⟨word, folded, value.trans fits⟩

/-! ## Splitting and making again -/

theorem isSome_mantissa16?_iff {number : Decimal} (bounded : inRange number.exponent = true) :
    number.mantissa16?.isSome = true ↔
      number.precision ≤ 16 ∧ -2 ^ 63 + 15 ≤ number.exponent := by
  have place : inRange (number.exponent - 15) = true ↔ -2 ^ 63 + 15 ≤ number.exponent := by
    simp only [inRange, Bool.and_eq_true, decide_eq_true_eq] at bounded ⊢
    omega
  rw [Option.isSome_iff_exists, ← place]
  constructor
  · rintro ⟨⟨mantissa, exponent⟩, found⟩
    exact (mantissa16?_eq_some.mp found).1
  · intro split
    exact ⟨(_, _), mantissa16?_eq_some.mpr ⟨split, rfl, rfl⟩⟩

private theorem mantissa_eq_zero {number : Decimal} (isZero : number.isZero = true) {mantissa : Nat}
    {exponent : Int} (found : number.mantissa16? = some (mantissa, exponent)) : mantissa = 0 := by
  obtain ⟨_, rfl, _⟩ := mantissa16?_eq_some.mp found
  rw [padded, List.isEmpty_iff.mp isZero, List.nil_append, Text.wholeValue_zeros]

/-- A decimal is made again of its sign and the two parts into which it is split. The
zero has no sign, and no digits of which it could be made. -/
theorem ofParts_isNegative {number : Decimal} (reduced : number.Reduced) {mantissa : Nat}
    {exponent : Int} (found : number.mantissa16? = some (mantissa, exponent)) :
    ofParts number.isNegative mantissa exponent = number := by
  cases empty : number.isZero with
  | true =>
      rw [mantissa_eq_zero empty found, isNegative, empty,
        reduced.eq_zero (List.isEmpty_iff.mp empty)]
      rfl
  | false =>
      rw [isNegative, empty, Bool.not_false, Bool.and_true]
      exact ofParts_of_mantissa16? reduced (List.isEmpty_eq_false_iff.mp empty) found

/-- A decimal is split exactly if it has at most sixteen significant digits and its
exponent is not among the fifteen least ones. Whatever its digits are, no step of putting
sixteen of them together leaves the 64 bits; if the decimal is split, they are the whole
number, which times the power of ten is the magnitude of the decimal, and which has
exactly sixteen digits unless the decimal is zero. Of its sign and the two parts the decimal
is made again, if 32 bits hold the power. -/
theorem sixteen_digits_of_obtained {number : Decimal} (obtained : Obtained number) :
    (number.mantissa16?.isSome = true ↔
        number.precision ≤ 16 ∧ -2 ^ 63 + 15 ≤ number.exponent) ∧
      ∃ word, number.accumulated? = some word ∧
        ∀ mantissa exponent, number.mantissa16? = some (mantissa, exponent) →
          word.toNat = mantissa ∧ |number.toRat| = mantissa * 10 ^ exponent ∧
            (number.isZero = true → mantissa = 0) ∧
            (number.isZero = false → 10 ^ 15 ≤ mantissa ∧ mantissa < 10 ^ 16) ∧
            ∀ power : Int32, power.toInt = exponent →
              ofParts number.isNegative word.toNat power.toInt = number := by
  obtain ⟨word, accumulated, value⟩ := exists_accumulated number
  refine ⟨isSome_mantissa16?_iff obtained.inRange, word, accumulated, ?_⟩
  intro mantissa exponent found
  obtain ⟨⟨few, _⟩, spelled, _⟩ := mantissa16?_eq_some.mp found
  have same : word.toNat = mantissa := by rw [value, leading_eq_padded few, spelled]
  refine ⟨same, abs_toRat_of_mantissa16? found, fun isZero => mantissa_eq_zero isZero found, ?_, ?_⟩
  · intro nonzero
    exact mantissa_bounds obtained.reduced (List.isEmpty_eq_false_iff.mp nonzero) found
  · rintro power rfl
    rw [same]
    exact ofParts_isNegative obtained.reduced found

/-- The greatest digits with the least exponent that is split, an exponent one less, and
five digits that are split into sixteen with the least power of 32 bits. -/
theorem sixteen_digits_of_obtained_extremes :
    (∃ number, parse "-9.999999999999999e-9223372036854775793" = .ok number ∧
        number.mantissa16? = some (9999999999999999, -2 ^ 63) ∧
        |number.toRat| = (9999999999999999 : Nat) * 10 ^ (-2 ^ 63 : Int)) ∧
      (∃ number, parse "1e-9223372036854775794" = .ok number ∧ number.mantissa16? = none) ∧
      ∃ word, (ofParts true 12345 (-2 ^ 31 + 11)).accumulated? = some word ∧
        word.toNat = 1234500000000000 ∧
        ofParts true word.toNat (-2 ^ 31) = ofParts true 12345 (-2 ^ 31 + 11) := by
  refine ⟨?_, ?_, ?_⟩
  · have read : parse "-9.999999999999999e-9223372036854775793" =
        .ok ⟨true, List.replicate 16 9, -2 ^ 63 + 15⟩ := by rfl
    have split : mantissa16? ⟨true, List.replicate 16 9, -2 ^ 63 + 15⟩ =
        some (9999999999999999, -2 ^ 63) := by rfl
    obtain ⟨_, _, _, meaning⟩ := sixteen_digits_of_obtained (.read read)
    exact ⟨_, read, split, (meaning _ _ split).2.1⟩
  · have read : parse "1e-9223372036854775794" = .ok ⟨false, [1], -2 ^ 63 + 14⟩ := by rfl
    refine ⟨_, read, ?_⟩
    rw [← Option.not_isSome_iff_eq_none, (sixteen_digits_of_obtained (.read read)).1]
    decide
  · have split : (ofParts true 12345 (-2 ^ 31 + 11)).mantissa16? =
        some (1234500000000000, -2 ^ 31) := by rfl
    obtain ⟨_, word, accumulated, meaning⟩ :=
      sixteen_digits_of_obtained (.parts true 12345 (-2147483637))
    obtain ⟨value, _, _, _, again⟩ := meaning _ _ split
    exact ⟨word, accumulated, value, again (-2147483648) rfl⟩

end LedgerWire.Decimal
