import LedgerWire.Proofs.IssuedWords
import LedgerWire.Proofs.Rates

/-!
# Numbers out of range

What becomes of a text that is spelled by the grammar of decimals is told by its
exponents and its number. With exponents of 64 bits it is written or out of range, as
the number has a written form or not. With others it is taken for no number at all.
-/

namespace LedgerWire

/-! ## Numbers that have octets -/

namespace Quality

/-- Whether a rate has octets: it has sixteen digits at most, of which the first stands
for a power of ten within the limits. -/
def Expressible (number : Decimal) : Prop :=
  number.precision ≤ 16 ∧ -85 ≤ number.exponent ∧ number.exponent ≤ 170

theorem exists_octets_iff (number : Decimal) :
    (∃ bytes, ofDecimal? number = some bytes) ↔ Expressible number := by
  constructor
  · rintro ⟨bytes, written⟩
    obtain ⟨power, mantissa, found, bound, _⟩ := ofDecimal?_eq_some.mp written
    obtain ⟨⟨few, _⟩, _, exponent⟩ := Decimal.mantissa16?_eq_some.mp found
    unfold bias at exponent
    exact ⟨few, by omega, by omega⟩
  · rintro ⟨few, low, high⟩
    have counted : ((number.exponent + 85).toNat : Int) = number.exponent + 85 := by omega
    have bounded : Decimal.inRange (number.exponent - 15) = true := by
      simp only [Decimal.inRange, Bool.and_eq_true, decide_eq_true_iff]
      omega
    refine ⟨_, ofDecimal?_eq_some.mpr ⟨(number.exponent + 85).toNat, _,
      Decimal.mantissa16?_eq_some.mpr ⟨⟨few, bounded⟩, rfl, ?_⟩, by omega, rfl⟩⟩
    unfold bias
    omega

end Quality

/-! ## What becomes of a text -/

namespace Decimal

theorem parse_eq_error {text : String} {fault : Error} (refused : parse text = .error fault) :
    fault = .invalidAmount (.notDecimal text) := by
  unfold parse at refused
  split at refused
  · cases refused
  · cases refused
    rfl

/-- The three ways a text may go. It is malformed unless its exponents are in range, and
else it is out of range unless its number has a written form. -/
structure Judged {α : Type} (outcome : Except Error α) (typeName text : String)
    (bounded expressible : Prop) : Prop where
  written : (∃ result, outcome = .ok result) ↔ bounded ∧ expressible
  outOfRange : outcome = .error (.outOfRange typeName text) ↔ bounded ∧ ¬ expressible
  malformed : outcome = .error (.invalidAmount (.notDecimal text)) ↔ ¬ bounded
  /-- All that is refused but for the exponents is refused for its range. -/
  ranged : ∀ fault, outcome = .error fault → (fault.errorClass = .range ↔ bounded)

private theorem judged_writeText {α : Type} {write? : Decimal → Option α}
    {expressible : Decimal → Prop} (typeName : String)
    (exact : ∀ number, (∃ result, write? number = some result) ↔ expressible number)
    (spelling : Spelling) :
    Judged (writeText write? typeName spelling.text) typeName spelling.text spelling.Bounded
      (expressible spelling.number) := by
  by_cases bounded : spelling.Bounded
  · have read : parse spelling.text = .ok spelling.number :=
      (parse_text_iff spelling _).mpr ⟨bounded, rfl⟩
    rw [writeText_of_parse read, ← exact]
    cases write? spelling.number with
    | some result =>
        constructor <;> simp [bounded]
    | none =>
        constructor <;> simp [bounded, Error.errorClass]
  · have refused : parse spelling.text = .error (.invalidAmount (.notDecimal spelling.text)) := by
      cases outcome : parse spelling.text with
      | ok number =>
          exact absurd ((parse_text_iff spelling number).mp outcome).1 bounded
      | error fault =>
          rw [parse_eq_error outcome]
    rw [writeText, refused, Outcome.error_bind]
    constructor <;> simp [bounded, Error.errorClass]

/-- Of the texts that are spelled by the grammar those are malformed, as an issued value
and as a rate, whose exponents are out of range, and no others. The spellings of zero
among the others are all written. -/
theorem judged_of_spelling (spelling : Spelling) :
    Judged (IssuedValue.ofText spelling.text) "Amount" spelling.text spelling.Bounded
        (IssuedValue.Expressible spelling.number) ∧
      Judged (Quality.ofText spelling.text) "Quality" spelling.text spelling.Bounded
        (Quality.Expressible spelling.number) ∧
      ((∀ digit ∈ spelling.digits, digit = 0) → inRange spelling.exponent = true →
        IssuedValue.ofText spelling.text = .ok IssuedValue.zeroWord ∧
          Quality.ofText spelling.text = .ok [85, 0, 0, 0, 0, 0, 0, 0]) := by
  rw [IssuedValue.ofText_eq_writeText, Quality.ofText_eq_writeText]
  refine ⟨judged_writeText "Amount" IssuedValue.exists_word_iff spelling,
    judged_writeText "Quality" Quality.exists_octets_iff spelling, fun zeros bounded => ?_⟩
  have read : parse spelling.text = .ok zero :=
    (parse_text_iff spelling _).mpr ⟨⟨bounded, .inl zeros⟩, (number_of_zeros zeros).symm⟩
  rw [writeText_of_parse read, writeText_of_parse read]
  exact ⟨rfl, rfl⟩

/-- A zero with the least exponent that is read, and one with the greatest exponent. -/
theorem judged_of_spelling_limits :
    (IssuedValue.ofText "-0.0e-9223372036854775808" = .ok IssuedValue.zeroWord ∧
        Quality.ofText "-0.0e-9223372036854775808" = .ok [85, 0, 0, 0, 0, 0, 0, 0]) ∧
      IssuedValue.ofText "1e9223372036854775807" =
          .error (.outOfRange "Amount" "1e9223372036854775807") ∧
        Quality.ofText "1e9223372036854775807" =
          .error (.outOfRange "Quality" "1e9223372036854775807") := by
  let zeros : Spelling :=
    ⟨some .minus, [0], some [0], some ⟨'e', some .minus,
      [9, 2, 2, 3, 3, 7, 2, 0, 3, 6, 8, 5, 4, 7, 7, 5, 8, 0, 8], by decide, by decide⟩, by decide⟩
  let great : Spelling :=
    ⟨none, [1], none, some ⟨'e', none,
      [9, 2, 2, 3, 3, 7, 2, 0, 3, 6, 8, 5, 4, 7, 7, 5, 8, 0, 7], by decide, by decide⟩, by decide⟩
  have bounded : great.Bounded := ⟨by decide +kernel, .inr (by decide +kernel)⟩
  obtain ⟨amount, rate, _⟩ := judged_of_spelling great
  refine ⟨(judged_of_spelling zeros).2.2 (by decide) (by decide +kernel),
    amount.outOfRange.mpr ⟨bounded, ?_⟩, rate.outOfRange.mpr ⟨bounded, ?_⟩⟩
  · rintro (isZero | ⟨_, _, high⟩)
    · exact absurd isZero (by decide +kernel)
    · exact absurd high (by decide +kernel)
  · rintro ⟨_, _, high⟩
    exact absurd high (by decide +kernel)

/-- Whether a text that is spelled by the grammar is taken for no number. -/
def CalledMalformed (text : String) : Prop :=
  (∃ spelling : Spelling, spelling.text = text) ∧
    IssuedValue.ofText text = .error (.invalidAmount (.notDecimal text)) ∧
    Quality.ofText text = .error (.invalidAmount (.notDecimal text))

/-- The exponent just above the range, also behind a zero, and one that is above it at the
first digit. -/
theorem wide_exponents_malformed :
    CalledMalformed "1e9223372036854775808" ∧ CalledMalformed "0e9223372036854775808" ∧
      CalledMalformed "10e9223372036854775807" := by
  let above : Power :=
    ⟨'e', none, [9, 2, 2, 3, 3, 7, 2, 0, 3, 6, 8, 5, 4, 7, 7, 5, 8, 0, 8], by decide, by decide⟩
  let greatest : Power :=
    ⟨'e', none, [9, 2, 2, 3, 3, 7, 2, 0, 3, 6, 8, 5, 4, 7, 7, 5, 8, 0, 7], by decide, by decide⟩
  exact ⟨⟨⟨⟨none, [1], none, some above, by decide⟩, by rfl⟩, by rfl, by rfl⟩,
    ⟨⟨⟨none, [0], none, some above, by decide⟩, by rfl⟩, by rfl, by rfl⟩,
    ⟨⟨⟨none, [1, 0], none, some greatest, by decide⟩, by rfl⟩, by rfl, by rfl⟩⟩

end Decimal

end LedgerWire
