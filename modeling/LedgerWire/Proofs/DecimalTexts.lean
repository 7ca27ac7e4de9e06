import LedgerWire.Proofs.DecimalMeaning

/-!
# Reading and showing decimals

The reader takes the texts of the grammar whose exponents are in range, and what it
reads stands for the number that the text denotes. The text that shows a decimal is
read as this decimal again.
-/

namespace LedgerWire.Decimal

/-! ## Reading -/

/-- The numbers that a text denotes by the grammar: one if the text is spelled by it,
and none else. -/
def Denotes (text : String) (value : ℚ) : Prop :=
  ∃ spelling : Spelling, spelling.text = text ∧ spelling.toRat = value

/-- Whether the exponents of a spelling are in range: the one that is written, and,
if not all digits are zero, that of the first other digit. -/
def Spelling.Bounded (spelling : Spelling) : Prop :=
  inRange spelling.exponent = true ∧
    ((∀ digit ∈ spelling.digits, digit = 0) ∨ inRange spelling.leadingPlace = true)

theorem parse_eq_ok {text : String} {number : Decimal} :
    parse text = .ok number ↔ parse? text.toList = some number := by
  unfold parse
  cases parse? text.toList with
  | none =>
      simp
  | some found =>
      simp

theorem inRange_number_iff (spelling : Spelling) :
    inRange spelling.number.exponent = true ↔
      (∀ digit ∈ spelling.digits, digit = 0) ∨ inRange spelling.leadingPlace = true := by
  by_cases zeros : ∀ digit ∈ spelling.digits, digit = 0
  · rw [number_of_zeros zeros]
    exact ⟨fun _ => .inl zeros, fun _ => rfl⟩
  · rw [exponent_number zeros]
    simp only [zeros, false_or]

theorem parse_text_iff (spelling : Spelling) (number : Decimal) :
    parse spelling.text = .ok number ↔ spelling.Bounded ∧ number = spelling.number := by
  rw [parse_eq_ok, Spelling.text, String.toList_ofList, parse?_chars, Spelling.Bounded,
    ← inRange_number_iff]
  by_cases bounded : (inRange spelling.exponent && inRange spelling.number.exponent) = true
  · rw [if_pos bounded]
    rw [Bool.and_eq_true] at bounded
    simp only [bounded, and_self, true_and, Option.some.injEq]
    exact eq_comm
  · rw [if_neg bounded]
    rw [Bool.and_eq_true] at bounded
    simp only [bounded, false_and, reduceCtorEq]

private theorem exists_spelling_of_parse {text : String} {number : Decimal}
    (read : parse text = .ok number) : ∃ spelling : Spelling, spelling.text = text := by
  obtain ⟨spelling, shown⟩ := exists_spelling (parse_eq_ok.mp read)
  exact ⟨spelling, by rw [Spelling.text, shown, String.ofList_toList]⟩

/-- A text that is read denotes the number of the decimal and no other. -/
theorem denotes_iff_of_parse {text : String} {number : Decimal} (read : parse text = .ok number)
    (value : ℚ) : Denotes text value ↔ value = number.toRat := by
  have meant {spelling : Spelling} (spelled : spelling.text = text) :
      spelling.toRat = number.toRat := by
    subst spelled
    obtain ⟨_, rfl⟩ := (parse_text_iff spelling number).mp read
    exact (toRat_number spelling).symm
  constructor
  · rintro ⟨spelling, spelled, rfl⟩
    exact meant spelled
  · rintro rfl
    obtain ⟨spelling, spelled⟩ := exists_spelling_of_parse read
    exact ⟨spelling, spelled, meant spelled⟩

theorem denotes_of_parse {text : String} {number : Decimal} (read : parse text = .ok number) :
    Denotes text number.toRat :=
  (denotes_iff_of_parse read _).mpr rfl

/-- A text is read exactly if it is spelled by the grammar with its exponents in range.
The decimal that is read stands for the one number that the text denotes, zeros stand
at neither end of its digits, and if it stands for zero, it is the unsigned zero. -/
theorem parse_grammar (text : String) :
    ((∃ number, parse text = .ok number) ↔
        ∃ spelling : Spelling, spelling.text = text ∧ spelling.Bounded) ∧
      ∀ number, parse text = .ok number →
        (∀ value, Denotes text value ↔ value = number.toRat) ∧
          number.digits.head? ≠ some 0 ∧ number.digits.getLast? ≠ some 0 ∧
          (number.toRat = 0 → number = ⟨false, [], 0⟩) := by
  refine ⟨⟨?_, ?_⟩, ?_⟩
  · rintro ⟨number, read⟩
    obtain ⟨spelling, rfl⟩ := exists_spelling_of_parse read
    exact ⟨spelling, rfl, ((parse_text_iff spelling number).mp read).1⟩
  · rintro ⟨spelling, rfl, bounded⟩
    exact ⟨spelling.number, (parse_text_iff spelling _).mpr ⟨bounded, rfl⟩⟩
  · intro number read
    obtain ⟨reduced, _⟩ := reduced_of_parse read
    exact ⟨denotes_iff_of_parse read, reduced.head_ne_zero, reduced.last_ne_zero,
      reduced.toRat_eq_zero_iff.mp⟩

/-- Both signs are shown, zeros stand around the digits, and the point between them. A
zero may have a sign and an exponent. -/
theorem parse_grammar_minus :
    (∃ number, parse "-0070.80E-3" = .ok number ∧ number.toRat = -177 / 2500) ∧
      ∃ number, parse "-.0e+5" = .ok number ∧ number = ⟨false, [], 0⟩ := by
  constructor
  · obtain ⟨accepted, meaning⟩ := parse_grammar "-0070.80E-3"
    let spelling : Spelling :=
      ⟨some .minus, [0, 0, 7, 0], some [8, 0], some ⟨'E', some .minus, [3], by decide, by decide⟩,
        by decide⟩
    have bounded : spelling.Bounded := ⟨by decide +kernel, .inr (by decide +kernel)⟩
    obtain ⟨number, read⟩ := accepted.mpr ⟨spelling, rfl, bounded⟩
    have value : spelling.toRat = -177 / 2500 := by decide +kernel
    exact ⟨number, read, (((meaning number read).1 _).mp ⟨spelling, rfl, value⟩).symm⟩
  · obtain ⟨accepted, meaning⟩ := parse_grammar "-.0e+5"
    let spelling : Spelling :=
      ⟨some .minus, [], some [0], some ⟨'e', some .plus, [5], by decide, by decide⟩, by decide⟩
    have bounded : spelling.Bounded := ⟨by decide +kernel, .inl (by decide +kernel)⟩
    obtain ⟨number, read⟩ := accepted.mpr ⟨spelling, rfl, bounded⟩
    have value : spelling.toRat = 0 := by decide +kernel
    obtain ⟨denoted, _, _, unsigned⟩ := meaning number read
    exact ⟨number, read, unsigned ((denoted 0).mp ⟨spelling, rfl, value⟩).symm⟩

/-! ## Showing -/

/-- The decimals that there are: those that are read from texts, and those that are
made of a whole number of 64 bits and an exponent of 32. -/
inductive Obtained : Decimal → Prop
  | read {text : String} {number : Decimal} (succeeded : parse text = .ok number) :
      Obtained number
  | parts (negative : Bool) (mantissa : UInt64) (exponent : Int32) :
      Obtained (ofParts negative mantissa.toNat exponent.toInt)

theorem Obtained.reduced {number : Decimal} (obtained : Obtained number) : number.Reduced := by
  cases obtained with
  | read succeeded =>
      exact (reduced_of_parse succeeded).1
  | parts negative mantissa exponent =>
      exact ofDigits_reduced _ _ _

theorem Obtained.inRange {number : Decimal} (obtained : Obtained number) :
    inRange number.exponent = true := by
  cases obtained with
  | read succeeded =>
      exact (reduced_of_parse succeeded).2
  | parts negative mantissa exponent =>
      have bound := mantissa.toNat_lt
      have low := exponent.le_toInt
      have high := exponent.toInt_lt
      exact inRange_ofParts (by omega) (by omega) (by omega)

/-- The text that shows a decimal is read as this decimal. -/
theorem parse_toText_of_obtained {number : Decimal} (obtained : Obtained number) :
    parse number.toText = .ok number :=
  parse_toText obtained.reduced obtained.inRange

/-- The least exponent that there is, and the greatest whole number with its greatest
power. -/
theorem parse_toText_of_obtained_extremes :
    parse (toText ⟨true, [1, 2, 5], -2 ^ 63⟩) = .ok ⟨true, [1, 2, 5], -2 ^ 63⟩ ∧
      parse (ofParts true (2 ^ 64 - 1) (2 ^ 31 - 1)).toText =
        .ok (ofParts true (2 ^ 64 - 1) (2 ^ 31 - 1)) := by
  have read : parse "-1.25e-9223372036854775808" = .ok ⟨true, [1, 2, 5], -2 ^ 63⟩ := by rfl
  exact ⟨parse_toText_of_obtained (.read read),
    parse_toText_of_obtained (.parts true 0xFFFFFFFFFFFFFFFF 0x7FFFFFFF)⟩

end LedgerWire.Decimal
