import LedgerWire.Decimal.Quality
import LedgerWire.Proofs.DecimalTexts

/-!
# Rates of offers

The octets of a rate hold the magnitude of a number: an octet tells the power of ten
and seven the sixteen digits. The magnitude is read back from them, and the octets of
positive rates stand in lexicographic order as the rates do.
-/

namespace LedgerWire

/-! ## Order of octets -/

/-- Numbers in a base are compared by their high parts, and by the low ones if these
are the same. -/
theorem Radix.lt_iff_parts {base high otherHigh low otherLow : Nat} (lowBound : low < base)
    (otherBound : otherLow < base) :
    high * base + low < otherHigh * base + otherLow ↔
      high < otherHigh ∨ high = otherHigh ∧ low < otherLow := by
  rcases Nat.lt_trichotomy high otherHigh with less | same | more
  · have step : (high + 1) * base ≤ otherHigh * base := Nat.mul_le_mul_right base less
    rw [Nat.add_mul, Nat.one_mul] at step
    simp only [less, true_or, iff_true]
    omega
  · subst same
    omega
  · have step : (otherHigh + 1) * base ≤ high * base := Nat.mul_le_mul_right base more
    rw [Nat.add_mul, Nat.one_mul] at step
    omega

namespace Bytes

private theorem toNat_cons (byte : UInt8) (rest : Bytes) :
    toNat (byte :: rest) = byte.toNat * 256 ^ rest.length + toNat rest := by
  have spelled (bytes : Bytes) : toNat bytes = Radix.value 256 (bytes.map UInt8.toNat) := by
    rw [Radix.value_eq_foldl, List.foldl_map, toNat]
  rw [spelled, spelled, List.map_cons, Radix.value_cons, List.length_map]

/-- Strings of as many octets stand in lexicographic order as the numbers do that they
spell. -/
theorem lt_iff_toNat_lt {left right : Bytes} (sizes : left.length = right.length) :
    left < right ↔ toNat left < toNat right := by
  induction left generalizing right with
  | nil =>
      rw [List.eq_nil_of_length_eq_zero sizes.symm]
      simp
  | cons first rest inductionHypothesis =>
      cases right with
      | nil =>
          cases sizes
      | cons other others =>
          have shorter : rest.length = others.length := Nat.succ.inj sizes
          have restBound := toNat_lt rest
          have othersBound := toNat_lt others
          rw [← shorter] at othersBound
          rw [List.cons_lt_cons_iff, inductionHypothesis shorter, toNat_cons, toNat_cons,
            ← shorter, Radix.lt_iff_parts restBound othersBound, UInt8.lt_iff_toNat_lt,
            UInt8.toNat_inj]

end Bytes

/-! ## Octets of rates -/

namespace Quality

open Decimal (Denotes)

/-- The octets of a power of ten, as it is counted there, and of the sixteen digits. -/
def octets (power mantissa : Nat) : Bytes := Bytes.ofNat 8 (power * 2 ^ 56 + mantissa)

private theorem toNat_octets {power mantissa : Nat} (powerBound : power < 2 ^ 8)
    (mantissaBound : mantissa < 10 ^ 16) :
    Bytes.toNat (octets power mantissa) = power * 2 ^ 56 + mantissa :=
  Bytes.toNat_ofNat_of_lt (by omega)

theorem ofDecimal?_eq_some {number : Decimal} {bytes : Bytes} :
    ofDecimal? number = some bytes ↔
      ∃ power mantissa : Nat, number.mantissa16? = some (mantissa, power - bias) ∧
        power < 2 ^ 8 ∧ octets power mantissa = bytes := by
  unfold ofDecimal?
  constructor
  · intro written
    split at written
    · cases written
    · rename_i mantissa exponent found
      split at written
      · rename_i fits
        have power : ((exponent + bias).toNat : Int) - bias = exponent := by omega
        refine ⟨(exponent + bias).toNat, mantissa, ?_, by omega, Option.some.inj written⟩
        rw [power, found]
      · cases written
  · rintro ⟨power, mantissa, found, bound, rfl⟩
    have counted : (power : Int) - bias + bias = power := Int.sub_add_cancel _ _
    rw [found]
    dsimp only
    rw [counted, if_pos (by omega), Int.toNat_natCast]
    rfl

private theorem toDecimal_octets {power mantissa : Nat} (powerBound : power < 2 ^ 8)
    (mantissaBound : mantissa < 10 ^ 16) :
    toDecimal (octets power mantissa) = .ok (Decimal.ofParts false mantissa (power - bias)) := by
  have size : (octets power mantissa).length = 8 := Bytes.length_ofNat 8 _
  have digits : (power * 2 ^ 56 + mantissa) % 2 ^ 56 = mantissa := by omega
  have counted : (power * 2 ^ 56 + mantissa) / 2 ^ 56 = power := by omega
  rw [toDecimal, if_neg (by omega), size, Nat.sub_self, List.drop_zero]
  dsimp only
  rw [toNat_octets powerBound mantissaBound, digits, counted]

/-- The magnitude of a number is read from its octets. -/
theorem toDecimal_of_ofDecimal? {number : Decimal} (reduced : number.Reduced) {bytes : Bytes}
    (written : ofDecimal? number = some bytes) : toDecimal bytes = .ok number.magnitude := by
  obtain ⟨power, mantissa, found, bound, rfl⟩ := ofDecimal?_eq_some.mp written
  rw [toDecimal_octets bound (Decimal.mantissa_lt found),
    Decimal.magnitude_of_mantissa16? reduced found]

theorem ofText_eq_writeText (text : String) :
    ofText text = Decimal.writeText ofDecimal? "Quality" text := by
  unfold ofText Decimal.writeText
  refine congrArg (Decimal.parse text >>= ·) (funext fun number => ?_)
  cases ofDecimal? number <;> rfl

theorem ofText_eq_ok {text : String} {bytes : Bytes} :
    ofText text = .ok bytes ↔
      ∃ number, Decimal.parse text = .ok number ∧ ofDecimal? number = some bytes := by
  rw [ofText_eq_writeText, Decimal.writeText_eq_ok]

/-- Whatever text has octets denotes one number, and its magnitude is read from them. So
the number itself is read exactly if it is not negative. -/
theorem toDecimal_of_ofText {text : String} {bytes : Bytes} (written : ofText text = .ok bytes) :
    ∃ rate value, toDecimal bytes = .ok rate ∧ (∀ other, Denotes text other ↔ other = value) ∧
      rate.toRat = |value| ∧ (Decimal.parse text = .ok rate ↔ 0 ≤ value) := by
  obtain ⟨number, read, fits⟩ := ofText_eq_ok.mp written
  have reduced := (Decimal.reduced_of_parse read).1
  refine ⟨number.magnitude, number.toRat, toDecimal_of_ofDecimal? reduced fits,
    Decimal.denotes_iff_of_parse read, number.toRat_magnitude, ?_⟩
  rw [read, Except.ok.injEq, eq_comm]
  exact reduced.magnitude_eq_iff

/-- With the least power of ten a positive number is read back, and a negative one without
its sign. -/
theorem toDecimal_of_ofText_least :
    (∃ bytes, ofText "+1.50e-85" = .ok bytes ∧ toDecimal bytes = Decimal.parse "+1.50e-85") ∧
      ∃ bytes rate, ofText "-1.50e-85" = .ok bytes ∧ toDecimal bytes = .ok rate ∧
        rate.toRat = 15 / 10 ^ 86 := by
  constructor
  · have written : ofText "+1.50e-85" = .ok (octets 0 1500000000000000) := by rfl
    obtain ⟨rate, value, read, denoted, _, same⟩ := toDecimal_of_ofText written
    have number : Decimal.parse "+1.50e-85" = .ok ⟨false, [1, 5], -85⟩ := by rfl
    have positive : 0 ≤ value := by
      rw [← (denoted _).mp (Decimal.denotes_of_parse number)]
      decide +kernel
    exact ⟨_, written, read.trans (same.mpr positive).symm⟩
  · have written : ofText "-1.50e-85" = .ok (octets 0 1500000000000000) := by rfl
    obtain ⟨rate, value, read, denoted, magnitude, _⟩ := toDecimal_of_ofText written
    have number : Decimal.parse "-1.50e-85" = .ok ⟨true, [1, 5], -85⟩ := by rfl
    refine ⟨_, rate, written, read, ?_⟩
    rw [magnitude, ← (denoted _).mp (Decimal.denotes_of_parse number)]
    decide +kernel

/-- A negative rate is written as its magnitude, and so read back as another number. -/
theorem negative_rate_read_positive :
    ofText "-1" = .ok [0x55, 0x03, 0x8D, 0x7E, 0xA4, 0xC6, 0x80, 0x00] ∧
      toDecimal [0x55, 0x03, 0x8D, 0x7E, 0xA4, 0xC6, 0x80, 0x00] = .ok ⟨false, [1], 0⟩ ∧
      Denotes "-1" (-1) ∧ ¬ Denotes "-1" (Decimal.toRat ⟨false, [1], 0⟩) := by
  have number : Decimal.parse "-1" = .ok ⟨true, [1], 0⟩ := by rfl
  refine ⟨by rfl, Outcome.eq_ok_of_toOption (by decide +kernel), ?_, ?_⟩
  · rw [Decimal.denotes_iff_of_parse number]
    decide +kernel
  · rw [Decimal.denotes_iff_of_parse number]
    decide +kernel

/-! ## Order of rates -/

/-- The octets of a positive rate are those of its power of ten and its digits. -/
theorem octets_of_ofText {text : String} {rate : ℚ} {bytes : Bytes} (denoted : Denotes text rate)
    (positive : 0 < rate) (written : ofText text = .ok bytes) :
    ∃ power mantissa : Nat, octets power mantissa = bytes ∧
      rate = mantissa * 10 ^ ((power : Int) - bias) ∧ power < 2 ^ 8 ∧
      10 ^ 15 ≤ mantissa ∧ mantissa < 10 ^ 16 := by
  obtain ⟨number, read, fits⟩ := ofText_eq_ok.mp written
  have reduced := (Decimal.reduced_of_parse read).1
  have value : rate = number.toRat := (Decimal.denotes_iff_of_parse read rate).mp denoted
  have nonzero : number.digits ≠ [] := by
    intro none
    rw [value, reduced.eq_zero none, Decimal.toRat_zero] at positive
    exact absurd positive (lt_irrefl 0)
  obtain ⟨power, mantissa, found, bound, same⟩ := ofDecimal?_eq_some.mp fits
  refine ⟨power, mantissa, same, ?_, bound, Decimal.mantissa_bounds reduced nonzero found⟩
  rw [← Decimal.abs_toRat_of_mantissa16? found, ← value, abs_of_pos positive]

/-- The octets of positive rates stand in lexicographic order as the rates do, and are
the same exactly for the same rate, however it is spelled. -/
theorem octets_lt_iff {left right : String} {leftRate rightRate : ℚ}
    {leftBytes rightBytes : Bytes} (leftDenoted : Denotes left leftRate)
    (rightDenoted : Denotes right rightRate) (leftPositive : 0 < leftRate)
    (rightPositive : 0 < rightRate) (leftWritten : ofText left = .ok leftBytes)
    (rightWritten : ofText right = .ok rightBytes) :
    (leftRate < rightRate ↔ leftBytes < rightBytes) ∧
      (leftRate = rightRate ↔ leftBytes = rightBytes) := by
  obtain ⟨leftPower, leftMantissa, rfl, rfl, leftBound, leftLow, leftHigh⟩ :=
    octets_of_ofText leftDenoted leftPositive leftWritten
  obtain ⟨rightPower, rightMantissa, rfl, rfl, rightBound, rightLow, rightHigh⟩ :=
    octets_of_ofText rightDenoted rightPositive rightWritten
  have sizes : (octets leftPower leftMantissa).length =
      (octets rightPower rightMantissa).length := by
    simp only [octets, Bytes.length_ofNat]
  have leftNumber := toNat_octets leftBound leftHigh
  have rightNumber := toNat_octets rightBound rightHigh
  constructor
  · rw [Decimal.scaled_lt_iff leftLow leftHigh rightLow rightHigh, Bytes.lt_iff_toNat_lt sizes,
      leftNumber, rightNumber, Radix.lt_iff_parts (by omega) (by omega)]
    omega
  · constructor
    · intro same
      have notLess := mt (Decimal.scaled_lt_iff leftLow leftHigh rightLow rightHigh).mpr same.not_lt
      have notMore := mt (Decimal.scaled_lt_iff rightLow rightHigh leftLow leftHigh).mpr same.not_gt
      have powers : leftPower = rightPower := by omega
      have mantissas : leftMantissa = rightMantissa := by omega
      rw [powers, mantissas]
    · intro same
      rw [same, rightNumber] at leftNumber
      have powers : leftPower = rightPower := by omega
      have mantissas : leftMantissa = rightMantissa := by omega
      rw [powers, mantissas]

/-- The greatest rate below a power of ten, and the power in two spellings. -/
theorem octets_lt_iff_power :
    ∃ below power spelled, ofText "9.999999999999999" = .ok below ∧ ofText "10" = .ok power ∧
      ofText "+0.1E2" = .ok spelled ∧ below < power ∧ power = spelled := by
  have belowWritten : ofText "9.999999999999999" = .ok (octets 85 9999999999999999) := by rfl
  have powerWritten : ofText "10" = .ok (octets 86 1000000000000000) := by rfl
  have spelledWritten : ofText "+0.1E2" = .ok (octets 86 1000000000000000) := by rfl
  have belowRead : Decimal.parse "9.999999999999999" = .ok ⟨false, List.replicate 16 9, 0⟩ := by
    rfl
  have powerRead : Decimal.parse "10" = .ok ⟨false, [1], 1⟩ := by rfl
  have spelledRead : Decimal.parse "+0.1E2" = .ok ⟨false, [1], 1⟩ := by rfl
  have belowDenoted := Decimal.denotes_of_parse belowRead
  have powerDenoted := Decimal.denotes_of_parse powerRead
  have spelledDenoted := Decimal.denotes_of_parse spelledRead
  have powerPositive : 0 < Decimal.toRat ⟨false, [1], 1⟩ := by decide +kernel
  refine ⟨_, _, _, belowWritten, powerWritten, spelledWritten, ?_, ?_⟩
  · apply (octets_lt_iff belowDenoted powerDenoted (by decide +kernel) powerPositive belowWritten
      powerWritten).1.mp
    decide +kernel
  · exact (octets_lt_iff powerDenoted spelledDenoted powerPositive powerPositive powerWritten
      spelledWritten).2.mp rfl

end Quality

end LedgerWire
