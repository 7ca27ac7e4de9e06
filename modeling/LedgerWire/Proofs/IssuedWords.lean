import LedgerWire.Proofs.DecimalTexts
import LedgerWire.Proofs.DecodedScalars

/-!
# Words of issued values

A number has a word if it has at most sixteen digits and its first digit stands
neither too high nor too low. The word stands for exactly this number, and the words
that are written again as they were read are told by their fields.
-/

namespace LedgerWire.IssuedValue

/-! ## Numbers that have a word -/

/-- Whether a number has a word: it is zero, or it has sixteen digits at most, of which
the first stands for a power of ten within the limits. -/
def Expressible (number : Decimal) : Prop :=
  number.isZero = true ∨
    number.precision ≤ 16 ∧ -81 ≤ number.exponent ∧ number.exponent ≤ 95

theorem fitsIssued_iff (number : Decimal) :
    Scalar.fitsIssued number = true ↔ Expressible number := by
  simp only [Scalar.fitsIssued, Expressible, Bool.or_eq_true, Bool.and_eq_true,
    decide_eq_true_iff]
  unfold leastExponent greatestExponent
  constructor
  · rintro (isZero | ⟨⟨few, low⟩, high⟩)
    · exact .inl isZero
    · exact .inr ⟨few, by omega, by omega⟩
  · rintro (isZero | ⟨few, low, high⟩)
    · exact .inl isZero
    · exact .inr ⟨⟨few, by omega⟩, by omega⟩

theorem exists_word_iff (number : Decimal) :
    (∃ word, ofDecimal? number = some word) ↔ Expressible number := by
  rw [← fitsIssued_iff]
  constructor
  · rintro ⟨word, written⟩
    exact fits_of_ofDecimal? written
  · exact ofDecimal?_of_fits

private theorem ofText_refused {text : String} {number : Decimal}
    (read : Decimal.parse text = .ok number) (excluded : ¬ Expressible number) :
    ofText text = .error (.outOfRange "Amount" text) := by
  rw [← exists_word_iff, ← Option.isSome_iff_exists, Option.not_isSome_iff_eq_none] at excluded
  rw [ofText_eq_writeText, Decimal.writeText_of_parse read, excluded]

/-- A text that is read as a number has the word of another text exactly if both stand
for the same number. -/
theorem ofText_eq_iff {text other : String} {number otherNumber : Decimal} {word : UInt64}
    (read : Decimal.parse text = .ok number) (written : ofText text = .ok word)
    (otherRead : Decimal.parse other = .ok otherNumber) :
    ofText other = .ok word ↔ otherNumber.toRat = number.toRat := by
  obtain ⟨reduced, _⟩ := Decimal.reduced_of_parse read
  obtain ⟨otherReduced, _⟩ := Decimal.reduced_of_parse otherRead
  have decoded {text : String} {number : Decimal} (read : Decimal.parse text = .ok number)
      (written : ofText text = .ok word) : toDecimal word = number := by
    have parsed := (ofText_toText written).1
    rw [read] at parsed
    exact (Except.ok.inj parsed).symm
  constructor
  · intro otherWritten
    rw [← decoded read written, ← decoded otherRead otherWritten]
  · intro same
    have numbers := otherReduced.eq_of_toRat_eq reduced same
    obtain ⟨found, foundRead, fits⟩ := ofText_eq_ok.mp written
    rw [read] at foundRead
    cases foundRead
    exact ofText_eq_ok.mpr ⟨otherNumber, otherRead, numbers ▸ fits⟩

/-- A text that is read as a number is written as a word exactly if the number has one,
and else it is out of range. The word stands for this number, and of all texts that are
read those have this word that denote the same number. -/
theorem ofText_exact {text : String} {number : Decimal}
    (read : Decimal.parse text = .ok number) :
    (Expressible number → ∃ word, ofText text = .ok word ∧ toDecimal word = number) ∧
      (¬ Expressible number → ofText text = .error (.outOfRange "Amount" text)) ∧
      ∀ word, ofText text = .ok word → ∀ other otherNumber,
        Decimal.parse other = .ok otherNumber →
          (ofText other = .ok word ↔
            ∃ value, Decimal.Denotes text value ∧ Decimal.Denotes other value) := by
  refine ⟨fun expressible => ?_, ofText_refused read, ?_⟩
  · obtain ⟨word, written⟩ := ofDecimal?_of_fits ((fitsIssued_iff number).mpr expressible)
    exact ⟨word, ofText_eq_ok.mpr ⟨number, read, written⟩,
      (toDecimal_of_ofDecimal? (Decimal.reduced_of_parse read).1 written).1⟩
  · intro word written other otherNumber otherRead
    rw [ofText_eq_iff read written otherRead]
    simp only [Decimal.denotes_iff_of_parse read, Decimal.denotes_iff_of_parse otherRead]
    constructor
    · intro same
      exact ⟨_, rfl, same.symm⟩
    · rintro ⟨_, rfl, same⟩
      exact same.symm

/-- The least number that has a word, in two spellings, and a number just too great. -/
theorem ofText_exact_least :
    (∃ word, ofText "-9999999999999999e80" = .ok word ∧
        toDecimal word = ⟨true, List.replicate 16 9, 95⟩ ∧
        ofText "-9.999999999999999E+95" = .ok word) ∧
      ofText "1e96" = .error (.outOfRange "Amount" "1e96") := by
  have read : Decimal.parse "-9999999999999999e80" = .ok ⟨true, List.replicate 16 9, 95⟩ := by rfl
  have otherRead : Decimal.parse "-9.999999999999999E+95" =
      .ok ⟨true, List.replicate 16 9, 95⟩ := by rfl
  have tooGreat : Decimal.parse "1e96" = .ok ⟨false, [1], 96⟩ := by rfl
  obtain ⟨exact, _, sameWord⟩ := ofText_exact read
  obtain ⟨word, written, decoded⟩ := exact (.inr (by decide))
  refine ⟨⟨word, written, decoded, ?_⟩, (ofText_exact tooGreat).2.1 ?_⟩
  · exact (sameWord word written _ _ otherRead).mpr
      ⟨_, (Decimal.denotes_iff_of_parse read _).mpr rfl,
        (Decimal.denotes_iff_of_parse otherRead _).mpr rfl⟩
  · rintro (isZero | ⟨_, _, high⟩)
    · cases isZero
    · exact absurd high (by decide)

/-! ## Words that are written again -/

/-- A word is told by its highest bit and its fields. -/
theorem eq_of_fields {left right : UInt64} (leftHigh : 2 ^ 63 ≤ left.toNat)
    (rightHigh : 2 ^ 63 ≤ right.toNat)
    (sign : (left.toNat / 2 ^ 62 % 2 == 0) = (right.toNat / 2 ^ 62 % 2 == 0))
    (exponent : left.toNat / 2 ^ 54 % 2 ^ 8 = right.toNat / 2 ^ 54 % 2 ^ 8)
    (mantissa : left.toNat % 2 ^ 54 = right.toNat % 2 ^ 54) : left = right := by
  have leftBound := left.toNat_lt
  have rightBound := right.toNat_lt
  have even : left.toNat / 2 ^ 62 % 2 = 0 ↔ right.toNat / 2 ^ 62 % 2 = 0 := by
    rw [← beq_iff_eq, sign, beq_iff_eq]
  apply UInt64.toNat_inj.mp
  omega

/-- Whether a word is that of a number that is not zero: its highest bit is set, its
mantissa has sixteen digits, and its exponent is within the limits. -/
structure Canonical (word : UInt64) : Prop where
  high : 2 ^ 63 ≤ word.toNat
  mantissa_low : 10 ^ 15 ≤ word.toNat % 2 ^ 54
  mantissa_high : word.toNat % 2 ^ 54 < 10 ^ 16
  exponent_low : 1 ≤ word.toNat / 2 ^ 54 % 2 ^ 8
  exponent_high : word.toNat / 2 ^ 54 % 2 ^ 8 ≤ 177

private theorem canonical_of_ofDecimal? {number : Decimal} (reduced : number.Reduced)
    (nonzero : number.digits ≠ []) {word : UInt64} (written : ofDecimal? number = some word) :
    Canonical word := by
  unfold ofDecimal? at written
  rw [if_neg (by simpa [Decimal.isZero] using nonzero)] at written
  split at written
  · cases written
  · rename_i mantissa exponent found
    split at written
    · rename_i limits
      cases written
      obtain ⟨low, high⟩ := Decimal.mantissa_bounds reduced nonzero found
      have bound : mantissa < 2 ^ 54 := by omega
      obtain ⟨mantissaKept, exponentKept, _, set⟩ :=
        toNat_word number.isNegative bound limits.1 limits.2
      unfold leastExponent greatestExponent at limits
      unfold bias at exponentKept
      refine ⟨set, ?_, ?_, ?_, ?_⟩
      · rwa [mantissaKept]
      · rwa [mantissaKept]
      · omega
      · omega
    · cases written

private theorem ofDecimal?_toDecimal {word : UInt64} (canonical : Canonical word) :
    ofDecimal? (toDecimal word) = some word := by
  obtain ⟨set, low, high, least, most⟩ := canonical
  generalize sign : (word.toNat / 2 ^ 62 % 2 == 0) = negative
  obtain ⟨exponent, power⟩ :
      ∃ exponent : Int, (word.toNat / 2 ^ 54 % 2 ^ 8 : Nat) - bias = exponent := ⟨_, rfl⟩
  have number : toDecimal word = Decimal.ofParts negative (word.toNat % 2 ^ 54) exponent := by
    rw [← power, ← sign]
    rfl
  unfold bias at power
  have bounded : Decimal.inRange exponent = true := by
    simp only [Decimal.inRange, Bool.and_eq_true, decide_eq_true_iff]
    omega
  have limits : leastExponent ≤ exponent ∧ exponent ≤ greatestExponent := by
    unfold leastExponent greatestExponent
    omega
  obtain ⟨found, signed, nonzero⟩ := Decimal.mantissa16?_ofParts negative low high bounded
  have isNegative : (Decimal.ofParts negative (word.toNat % 2 ^ 54) exponent).isNegative =
      negative := by
    simp [Decimal.isNegative, Decimal.isZero, signed, nonzero]
  rw [number, ofDecimal?, if_neg (by simpa [Decimal.isZero] using nonzero), found]
  dsimp only
  rw [if_pos limits, isNegative]
  have bound : word.toNat % 2 ^ 54 < 2 ^ 54 := by omega
  obtain ⟨mantissaKept, exponentKept, signKept, setKept⟩ :=
    toNat_word negative bound limits.1 limits.2
  unfold bias at exponentKept
  have powerKept : (IssuedValue.word negative (word.toNat % 2 ^ 54) exponent).toNat / 2 ^ 54 %
      2 ^ 8 = word.toNat / 2 ^ 54 % 2 ^ 8 := by omega
  exact congrArg some (eq_of_fields setKept set (signKept.trans sign.symm) powerKept mantissaKept)

/-- A word is written again, by way of the text that shows its number, exactly if it is
that of zero or a canonical one. -/
theorem ofText_toDecimal_iff (word : UInt64) :
    ofText (toDecimal word).toText = .ok word ↔ word = 0x8000000000000000 ∨ Canonical word := by
  have again : ofText (toDecimal word).toText = .ok word ↔
      ofDecimal? (toDecimal word) = some word := by
    rw [ofText_eq_ok]
    constructor
    · rintro ⟨number, read, written⟩
      rw [parse_toDecimal] at read
      cases read
      exact written
    · intro written
      exact ⟨_, parse_toDecimal word, written⟩
  rw [again]
  constructor
  · intro written
    by_cases none : (toDecimal word).digits = []
    · left
      rw [ofDecimal?, if_pos (by simp [Decimal.isZero, none])] at written
      exact (Option.some.inj written).symm
    · exact .inr (canonical_of_ofDecimal? (reduced_toDecimal word) none written)
  · rintro (rfl | canonical)
    · decide +kernel
    · exact ofDecimal?_toDecimal canonical

end LedgerWire.IssuedValue
