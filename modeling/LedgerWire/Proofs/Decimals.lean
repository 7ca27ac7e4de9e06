import LedgerWire.Decimal.IssuedValue
import LedgerWire.Proofs.Spelling
import Mathlib.Data.List.TakeWhile

/-!
# Decimals as texts and as words

A reduced decimal is read back from its text, in either notation, and from its
word if it has one.
-/

namespace LedgerWire.Decimal

/-- Zeros stand at neither end of the digits, and zero has one form only. -/
structure Reduced (number : Decimal) : Prop where
  head_ne_zero : number.digits.head? ≠ some 0
  last_ne_zero : number.digits.getLast? ≠ some 0
  eq_zero : number.digits = [] → number = zero

private theorem reduced_zero : zero.Reduced where
  head_ne_zero := by simp [zero]
  last_ne_zero := by simp [zero]
  eq_zero _ := rfl

/-! ## Building from digits -/

/-- Digits that do not start with a zero are not shortened. -/
theorem span_of_head {digits : List (Fin 10)} (head : digits.head? ≠ some 0) :
    digits.takeWhile (· == 0) = [] ∧ digits.dropWhile (· == 0) = digits := by
  cases digits with
  | nil =>
      exact ⟨rfl, rfl⟩
  | cons first rest =>
      have kept : ¬ (first == 0) = true := by simpa using head
      exact ⟨List.takeWhile_cons_of_neg kept, List.dropWhile_cons_of_neg kept⟩

/-- Digits are zeros, the significant ones, and zeros again. -/
theorem exists_significant (digits : List (Fin 10)) :
    ∃ after, digits = List.replicate (digits.takeWhile (· == 0)).length 0 ++
      trimEnd (digits.dropWhile (· == 0)) ++ List.replicate after 0 := by
  have zeros (items : List (Fin 10)) :
      items.takeWhile (· == 0) = List.replicate (items.takeWhile (· == 0)).length 0 := by
    refine List.eq_replicate_iff.mpr ⟨rfl, fun digit member => ?_⟩
    simpa using List.mem_takeWhile_imp member
  have behind : digits.dropWhile (· == 0) = trimEnd (digits.dropWhile (· == 0)) ++
      List.replicate ((digits.dropWhile (· == 0)).reverse.takeWhile (· == 0)).length 0 := by
    rw [← List.reverse_inj, List.reverse_append, List.reverse_replicate, trimEnd,
      List.reverse_reverse, ← zeros, List.takeWhile_append_dropWhile]
  refine ⟨((digits.dropWhile (· == 0)).reverse.takeWhile (· == 0)).length, ?_⟩
  rw [List.append_assoc, ← behind, ← zeros, List.takeWhile_append_dropWhile]

theorem trimEnd_eq_nil_iff (digits : List (Fin 10)) :
    trimEnd (digits.dropWhile (· == 0)) = [] ↔ ∀ digit ∈ digits, digit = 0 := by
  constructor
  · intro none digit member
    obtain ⟨after, spelled⟩ := exists_significant digits
    rw [none, List.append_nil, List.replicate_append_replicate] at spelled
    rw [spelled] at member
    exact List.eq_of_mem_replicate member
  · intro zeros
    have none : digits.dropWhile (· == 0) = [] :=
      List.dropWhile_eq_nil_iff.mpr fun digit member => by simp [zeros digit member]
    rw [none]
    rfl

theorem ofDigits_reduced (negative : Bool) (digits : List (Fin 10)) (exponent : Int) :
    (ofDigits negative digits exponent).Reduced := by
  unfold ofDigits
  by_cases none : (trimEnd (digits.dropWhile (· == 0))).isEmpty = true
  · rw [if_pos none]
    exact reduced_zero
  · rw [if_neg none]
    refine ⟨?_, ?_, fun empty => absurd (List.isEmpty_iff.mpr empty) none⟩
    · have kept := List.head?_dropWhile_not (fun digit : Fin 10 => digit == 0) digits
      obtain ⟨trimmed, same⟩ : trimEnd (digits.dropWhile (· == 0)) <+:
          digits.dropWhile (· == 0) := by
        rw [trimEnd, ← List.reverse_suffix, List.reverse_reverse]
        exact List.dropWhile_suffix _
      rw [← same] at kept
      cases shown : trimEnd (digits.dropWhile (· == 0)) with
      | nil =>
          simp
      | cons first rest =>
          rw [shown] at kept
          simpa using kept
    · have kept := List.head?_dropWhile_not (fun digit : Fin 10 => digit == 0)
        (digits.dropWhile (· == 0)).reverse
      intro isZero
      rw [trimEnd, List.getLast?_reverse] at isZero
      rw [isZero] at kept
      simp at kept

private theorem exponent_ofDigits (negative : Bool) (digits : List (Fin 10)) (exponent : Int) :
    (ofDigits negative digits exponent).exponent = 0 ∨
      exponent - digits.length ≤ (ofDigits negative digits exponent).exponent ∧
        (ofDigits negative digits exponent).exponent ≤ exponent := by
  have zeros : (digits.takeWhile (· == 0)).length ≤ digits.length :=
    (List.takeWhile_prefix _).length_le
  unfold ofDigits
  dsimp only
  split
  · exact .inl rfl
  · refine .inr ⟨?_, ?_⟩
    · dsimp only
      omega
    · dsimp only
      omega

/-- A number of few digits and a small power has an exponent in range. -/
theorem inRange_ofParts {negative : Bool} {mantissa : Nat} {exponent : Int}
    (bound : mantissa < 10 ^ 20) (low : -2 ^ 32 ≤ exponent) (high : exponent ≤ 2 ^ 32) :
    inRange (ofParts negative mantissa exponent).exponent = true := by
  have few := (Radix.length_digits_le_iff (by omega) mantissa 20).mpr bound
  have bounds := exponent_ofDigits negative ((Radix.digits 10 mantissa).map (Fin.ofNat 10))
    (((Radix.digits 10 mantissa).map (Fin.ofNat 10)).length - 1 + exponent)
  unfold ofParts
  dsimp only
  rw [List.length_map] at bounds ⊢
  simp only [inRange, Bool.and_eq_true, decide_eq_true_iff]
  omega

/-- Zeros around the digits of a reduced decimal do not count. -/
theorem ofDigits_padded {number : Decimal} (reduced : number.Reduced)
    (nonzero : number.digits ≠ []) (before after : Nat) :
    ofDigits number.negative
      (List.replicate before 0 ++ number.digits ++ List.replicate after 0)
      (number.exponent + before) = number := by
  have isZero (count : Nat) :
      ∀ digit ∈ List.replicate count (0 : Fin 10), (digit == 0) = true := by
    intro digit member
    rw [List.eq_of_mem_replicate member]
    rfl
  have inner : (number.digits ++ List.replicate after 0).head? ≠ some 0 := by
    rw [List.head?_append_of_ne_nil _ nonzero]
    exact reduced.head_ne_zero
  obtain ⟨noneTaken, front⟩ := span_of_head inner
  have last := reduced.last_ne_zero
  rw [← List.head?_reverse] at last
  obtain ⟨_, back⟩ := span_of_head last
  have significant : trimEnd ((List.replicate before 0 ++ number.digits ++
      List.replicate after 0).dropWhile (· == 0)) = number.digits := by
    rw [List.append_assoc, List.dropWhile_append_of_pos (isZero before), front, trimEnd,
      List.reverse_append, List.reverse_replicate, List.dropWhile_append_of_pos (isZero after),
      back, List.reverse_reverse]
  have leading : ((List.replicate before 0 ++ number.digits ++
      List.replicate after 0).takeWhile (· == 0)).length = before := by
    rw [List.append_assoc, List.takeWhile_append_of_pos (isZero before), noneTaken,
      List.append_nil, List.length_replicate]
  unfold ofDigits
  rw [significant, leading, if_neg (by simpa using nonzero), Int.add_sub_cancel]

/-! ## Texts -/

/-- The sign of a number, which only a minus shows. -/
def shownSign (negative : Bool) : Option Sign := if negative then some .minus else none

private theorem isMinus_shownSign (negative : Bool) :
    Sign.isMinus (shownSign negative) = negative := by
  cases negative <;> rfl

/-- The exponent of exponential notation always shows its sign. -/
theorem exists_shownPower (exponent : Int) :
    ∃ power : Power, power.value = exponent ∧
      power.chars = 'e' :: (if exponent < 0 then '-' else '+') ::
        Nat.toDigits 10 exponent.natAbs := by
  obtain ⟨digits, nonempty, shown, value⟩ :=
    Text.whole?_eq_some.mp (Text.whole?_toDigits exponent.natAbs)
  by_cases negative : exponent < 0
  · refine ⟨⟨'e', some .minus, digits, .inl rfl, nonempty⟩, ?_, ?_⟩
    · rw [Power.value, value]
      change -(exponent.natAbs : Int) = exponent
      omega
    · rw [if_pos negative, shown]
      rfl
  · refine ⟨⟨'e', some .plus, digits, .inl rfl, nonempty⟩, ?_, ?_⟩
    · rw [Power.value, value]
      change (exponent.natAbs : Int) = exponent
      omega
    · rw [if_neg negative, shown]
      rfl

section Magnitudes

variable {number : Decimal} (reduced : number.Reduced) (nonzero : number.digits ≠ [])
  (bounded : inRange number.exponent = true)

include reduced nonzero bounded

/-- A number is read from any spelling of its digits, with zeros around them, whose
first digit has the right place. -/
theorem parse?_of_spelling (spelling : Spelling) (before after : Nat) {text : List Char}
    (shown : spelling.chars = text)
    (sign : spelling.sign = shownSign number.negative)
    (power : inRange spelling.exponent = true)
    (padded : spelling.digits =
      List.replicate before 0 ++ number.digits ++ List.replicate after 0)
    (place : spelling.place = number.exponent + before) : parse? text = some number := by
  have same : spelling.number = number := by
    rw [Spelling.number, sign, isMinus_shownSign, padded, place, ofDigits_padded reduced nonzero]
  rw [← shown, parse?_chars, same, power, bounded]
  rfl

private theorem parse?_exponential :
    parse? (Sign.chars (shownSign number.negative) ++
      Text.exponential (number.digits.map digitChar) number.exponent) = some number := by
  obtain ⟨first, rest, spelled⟩ := List.exists_cons_of_ne_nil nonzero
  obtain ⟨power, value, powerShown⟩ := exists_shownPower number.exponent
  have powerBounded : inRange power.value = true := value ▸ bounded
  unfold Text.exponential
  dsimp only
  rw [spelled, ← powerShown]
  cases rest with
  | nil =>
      apply parse?_of_spelling reduced nonzero bounded
        ⟨shownSign number.negative, [first], none, some power, by simp⟩ 0 0
      · rfl
      · rfl
      · exact powerBounded
      · simp [Spelling.digits, spelled]
      · simp [Spelling.place, Spelling.exponent, powerValue, value]
  | cons next others =>
      apply parse?_of_spelling reduced nonzero bounded
        ⟨shownSign number.negative, [first], some (next :: others), some power, by simp⟩ 0 0
      · simp [Spelling.chars, Spelling.mantissaChars, Spelling.pointChars, powerChars]
      · rfl
      · exact powerBounded
      · simp [Spelling.digits, spelled]
      · simp [Spelling.place, Spelling.exponent, powerValue, value]

/-- Zeros stand between the point and the digits of a number below one, and behind the
digits of a large whole number; otherwise the point stands between two of the digits. -/
theorem parse?_positional :
    parse? (Sign.chars (shownSign number.negative) ++
      Text.positional (number.digits.map digitChar) number.exponent) = some number := by
  unfold Text.positional
  split
  · rename_i small
    apply parse?_of_spelling reduced nonzero bounded
      ⟨shownSign number.negative, [0],
        some (List.replicate (-number.exponent - 1).toNat 0 ++ number.digits), none,
        List.cons_ne_nil _ _⟩
      (-number.exponent).toNat 0
    · simp [Spelling.chars, Spelling.mantissaChars, Spelling.pointChars, powerChars, digitChar]
    · rfl
    · rfl
    · have count : (-number.exponent).toNat = (-number.exponent - 1).toNat + 1 := by omega
      rw [count, List.replicate_succ, List.replicate_zero, List.append_nil]
      rfl
    · change (1 : Int) - 1 + 0 = number.exponent + (-number.exponent).toNat
      omega
  · rename_i large
    dsimp only
    split
    · rename_i short
      apply parse?_of_spelling reduced nonzero bounded
        ⟨shownSign number.negative, number.digits ++
          List.replicate (number.exponent.toNat + 1 - number.digits.length) 0, none, none,
          by simp [nonzero]⟩
        0 (number.exponent.toNat + 1 - number.digits.length)
      · simp [Spelling.chars, Spelling.mantissaChars, Spelling.pointChars, powerChars, digitChar]
      · rfl
      · rfl
      · simp [Spelling.digits]
      · rw [List.length_map] at short
        simp only [Spelling.place, Spelling.exponent, powerValue, Option.elim_none,
          List.length_append, List.length_replicate]
        omega
    · rename_i long
      apply parse?_of_spelling reduced nonzero bounded
        ⟨shownSign number.negative, number.digits.take (number.exponent.toNat + 1),
          some (number.digits.drop (number.exponent.toNat + 1)), none, by simp [nonzero]⟩ 0 0
      · simp [Spelling.chars, Spelling.mantissaChars, Spelling.pointChars, powerChars]
      · rfl
      · rfl
      · simp [Spelling.digits]
      · rw [List.length_map] at long
        simp only [Spelling.place, Spelling.exponent, powerValue, Option.elim_none,
          List.length_take]
        omega

end Magnitudes

private theorem parse?_toChars {number : Decimal} (reduced : number.Reduced)
    (bounded : inRange number.exponent = true) : parse? number.toChars = some number := by
  by_cases none : number.digits = []
  · rw [reduced.eq_zero none]
    decide +kernel
  · have shown : number.toChars =
        Sign.chars (shownSign number.negative) ++
          magnitudeText number.digits number.exponent := by
      cases negative : number.negative <;>
        simp [toChars, isZero, none, negative, shownSign, Sign.chars, Sign.char]
    rw [shown, magnitudeText]
    split
    · exact parse?_exponential reduced none bounded
    · exact parse?_positional reduced none bounded

theorem parse_toText {number : Decimal} (reduced : number.Reduced)
    (bounded : inRange number.exponent = true) : parse number.toText = .ok number := by
  rw [parse, toText, String.toList_ofList, parse?_toChars reduced bounded]

/-- Whatever is read is reduced and within the range of exponents. -/
theorem reduced_of_parse {text : String} {number : Decimal} (read : parse text = .ok number) :
    number.Reduced ∧ inRange number.exponent = true := by
  unfold parse at read
  split at read
  · rename_i found parsed
    cases read
    unfold parse? at parsed
    simp only [bind, Option.bind_eq_some_iff] at parsed
    obtain ⟨exponent, _, digits, _, checked⟩ := parsed
    split at checked
    · cases checked
    · split at checked
      · rename_i bounded
        cases checked
        exact ⟨ofDigits_reduced _ _ _, bounded⟩
      · cases checked
  · cases read

/-! ## Sixteen digits -/

/-- The digits with zeros behind them, so that there are sixteen. -/
def padded (number : Decimal) : List (Fin 10) :=
  number.digits ++ List.replicate (16 - number.precision) 0

theorem mantissa16?_eq_some {number : Decimal} {mantissa : Nat} {exponent : Int} :
    number.mantissa16? = some (mantissa, exponent) ↔
      (number.precision ≤ 16 ∧ inRange (number.exponent - 15) = true) ∧
        Text.wholeValue number.padded = mantissa ∧ number.exponent - 15 = exponent := by
  unfold mantissa16?
  dsimp only
  by_cases fits : number.precision ≤ 16 ∧ inRange (number.exponent - 15) = true
  · rw [if_pos fits, Option.some.injEq, Prod.mk.injEq]
    simp only [fits, and_self, true_and]
    rfl
  · rw [if_neg fits]
    simp only [fits, false_and, reduceCtorEq]

theorem length_padded {number : Decimal} (few : number.precision ≤ 16) :
    number.padded.length = 16 := by
  unfold precision at few
  simp only [padded, precision, List.length_append, List.length_replicate]
  omega

/-- Zeros are added behind only, so the first digit still is none. -/
theorem Reduced.head?_padded {number : Decimal} (reduced : number.Reduced)
    (nonzero : number.digits ≠ []) : number.padded.head? ≠ some 0 := by
  rw [padded, List.head?_append_of_ne_nil _ nonzero]
  exact reduced.head_ne_zero

theorem mantissa_lt {number : Decimal} {mantissa : Nat} {exponent : Int}
    (found : number.mantissa16? = some (mantissa, exponent)) : mantissa < 10 ^ 16 := by
  obtain ⟨⟨few, _⟩, rfl, _⟩ := mantissa16?_eq_some.mp found
  have high := Radix.value_lt (by omega) (Text.map_val_lt number.padded)
  rwa [List.length_map, length_padded few] at high

theorem mantissa_bounds {number : Decimal} (reduced : number.Reduced)
    (nonzero : number.digits ≠ []) {mantissa : Nat} {exponent : Int}
    (found : number.mantissa16? = some (mantissa, exponent)) :
    10 ^ 15 ≤ mantissa ∧ mantissa < 10 ^ 16 := by
  refine ⟨?_, mantissa_lt found⟩
  obtain ⟨⟨few, _⟩, rfl, _⟩ := mantissa16?_eq_some.mp found
  have head := reduced.head?_padded nonzero
  have size := length_padded few
  cases shown : number.padded with
  | nil =>
      rw [shown] at size
      cases size
  | cons first rest =>
      rw [shown] at head size
      have low := Text.pow_le_wholeValue (by simpa using head : first ≠ 0) rest
      rwa [Nat.succ.inj size] at low

/-- A decimal that is split into a whole number of sixteen digits and a power of ten is
made of them again. -/
theorem ofParts_of_mantissa16? {number : Decimal} (reduced : number.Reduced)
    (nonzero : number.digits ≠ []) {mantissa : Nat} {exponent : Int}
    (found : number.mantissa16? = some (mantissa, exponent)) :
    ofParts number.negative mantissa exponent = number := by
  obtain ⟨⟨few, _⟩, rfl, rfl⟩ := mantissa16?_eq_some.mp found
  have digits : Text.wholeDigits (Text.wholeValue number.padded) = number.padded :=
    (Text.wholeDigits_wholeValue number.padded).trans
      (span_of_head (reduced.head?_padded nonzero)).2
  have place : (number.padded.length : Int) - 1 + (number.exponent - 15) =
      number.exponent + (0 : Nat) := by
    rw [length_padded few]
    omega
  change ofDigits number.negative (Text.wholeDigits (Text.wholeValue number.padded))
    ((Text.wholeDigits (Text.wholeValue number.padded)).length - 1 + (number.exponent - 15)) =
      number
  rw [digits, place]
  exact ofDigits_padded reduced nonzero 0 (16 - number.precision)

/-- What is made of a whole number of sixteen digits is split into it again. -/
theorem mantissa16?_ofParts (negative : Bool) {mantissa : Nat} {exponent : Int}
    (low : 10 ^ 15 ≤ mantissa) (high : mantissa < 10 ^ 16) (bounded : inRange exponent = true) :
    (ofParts negative mantissa exponent).mantissa16? = some (mantissa, exponent) ∧
      (ofParts negative mantissa exponent).negative = negative ∧
      (ofParts negative mantissa exponent).digits ≠ [] := by
  have size := Text.length_wholeDigits low high
  obtain ⟨none, front⟩ := span_of_head (Text.head?_wholeDigits mantissa)
  obtain ⟨after, spelled⟩ := exists_significant (Text.wholeDigits mantissa)
  rw [none, front, List.length_nil, List.replicate_zero, List.nil_append] at spelled
  have nonempty : trimEnd (Text.wholeDigits mantissa) ≠ [] := by
    intro empty
    rw [empty, List.nil_append] at spelled
    have isZero := congrArg Text.wholeValue spelled
    rw [Text.wholeValue_wholeDigits, Text.wholeValue_zeros] at isZero
    omega
  have made : ofParts negative mantissa exponent =
      ⟨negative, trimEnd (Text.wholeDigits mantissa), exponent + 15⟩ := by
    change ofDigits negative (Text.wholeDigits mantissa)
      ((Text.wholeDigits mantissa).length - 1 + exponent) = _
    rw [ofDigits, front, none, if_neg (by simpa using nonempty), size, List.length_nil]
    congr 1
    omega
  have lengths := congrArg List.length spelled
  rw [List.length_append, List.length_replicate, size] at lengths
  rw [made]
  refine ⟨mantissa16?_eq_some.mpr ⟨⟨?_, ?_⟩, ?_, ?_⟩, rfl, nonempty⟩
  · change (trimEnd _).length ≤ 16
    omega
  · rwa [Int.add_sub_cancel]
  · have zeros : 16 - (trimEnd (Text.wholeDigits mantissa)).length = after := by omega
    change Text.wholeValue (trimEnd _ ++ List.replicate (16 - (trimEnd _).length) 0) = mantissa
    rw [zeros, ← spelled, Text.wholeValue_wholeDigits]
  · exact Int.add_sub_cancel _ _

/-! ## Texts of numbers that are written -/

section Written

variable {α : Type} {write? : Decimal → Option α} {typeName text : String}

/-- Reads a number and writes it in a form that not every number has. -/
def writeText (write? : Decimal → Option α) (typeName text : String) : Except Error α := do
  let number ← parse text
  match write? number with
  | some written => return written
  | none => throw (.outOfRange typeName text)

theorem writeText_of_parse {number : Decimal} (read : parse text = .ok number) :
    writeText write? typeName text =
      match write? number with
      | some written => .ok written
      | none => .error (.outOfRange typeName text) := by
  rw [writeText, read]
  rfl

theorem writeText_eq_ok {written : α} :
    writeText write? typeName text = .ok written ↔
      ∃ number, parse text = .ok number ∧ write? number = some written := by
  unfold writeText
  rw [Outcome.bind_eq_ok]
  refine exists_congr fun number => and_congr_right fun _ => ?_
  cases write? number <;> simp

end Written

end LedgerWire.Decimal

namespace LedgerWire.IssuedValue

/-! ## Words -/

/-- The fields of a word are read back, and its highest bit is set. -/
theorem toNat_word (negative : Bool) {mantissa : Nat} {exponent : Int}
    (mantissaBound : mantissa < 2 ^ 54) (low : leastExponent ≤ exponent)
    (high : exponent ≤ greatestExponent) :
    (word negative mantissa exponent).toNat % 2 ^ 54 = mantissa ∧
      (((word negative mantissa exponent).toNat / 2 ^ 54 % 2 ^ 8 : Nat) : Int) - bias = exponent ∧
      ((word negative mantissa exponent).toNat / 2 ^ 62 % 2 == 0) = negative ∧
      2 ^ 63 ≤ (word negative mantissa exponent).toNat := by
  unfold leastExponent at low
  unfold greatestExponent at high
  obtain ⟨power, lifted⟩ : ∃ power : Nat, exponent + bias = power := by
    unfold bias
    exact ⟨(exponent + 97).toNat, by omega⟩
  have powerBound : power ≤ 177 := by
    unfold bias at lifted
    omega
  have restored : exponent = power - bias := by omega
  have sum : (word negative mantissa exponent).toNat =
      2 ^ 63 + (if negative then 0 else 2 ^ 62) + power * 2 ^ 54 + mantissa := by
    rw [word, lifted, Int.toNat_natCast]
    apply UInt64.toNat_ofNat_of_lt'
    unfold UInt64.size
    split <;> omega
  rw [sum, restored]
  cases negative with
  | true =>
      simp only [if_true, beq_iff_eq]
      refine ⟨by omega, ?_, by omega, by omega⟩
      congr 1
      omega
  | false =>
      simp only [Bool.false_eq_true, if_false, beq_eq_false_iff_ne, ne_eq]
      refine ⟨by omega, ?_, by omega, by omega⟩
      congr 1
      omega

private theorem toDecimal_word (negative : Bool) {mantissa : Nat} {exponent : Int}
    (mantissaBound : mantissa < 2 ^ 54) (low : leastExponent ≤ exponent)
    (high : exponent ≤ greatestExponent) :
    toDecimal (word negative mantissa exponent) = Decimal.ofParts negative mantissa exponent := by
  obtain ⟨mantissaKept, exponentKept, signKept, _⟩ := toNat_word negative mantissaBound low high
  simp only [toDecimal, mantissaKept, exponentKept, signKept]

/-- A number is what its word stands for. -/
theorem toDecimal_of_ofDecimal? {number : Decimal} (reduced : number.Reduced) {bits : UInt64}
    (written : ofDecimal? number = some bits) :
    toDecimal bits = number ∧ 2 ^ 63 ≤ bits.toNat := by
  unfold ofDecimal? at written
  by_cases none : number.digits = []
  · rw [if_pos (by simp [Decimal.isZero, none])] at written
    cases written
    rw [reduced.eq_zero none]
    decide +kernel
  · rw [if_neg (by simp [Decimal.isZero, none])] at written
    split at written
    · cases written
    · rename_i mantissa exponent found
      split at written
      · rename_i fits
        cases written
        have restored := Decimal.ofParts_of_mantissa16? reduced none found
        have bound : mantissa < 2 ^ 54 :=
          lt_trans (Decimal.mantissa_bounds reduced none found).2 (by norm_num)
        have signed : number.isNegative = number.negative := by
          simp [Decimal.isNegative, Decimal.isZero, none]
        rw [signed, toDecimal_word number.negative bound fits.1 fits.2]
        exact ⟨restored, (toNat_word number.negative bound fits.1 fits.2).2.2.2⟩
      · cases written

theorem ofText_eq_writeText (text : String) :
    ofText text = Decimal.writeText ofDecimal? "Amount" text := by
  unfold ofText Decimal.writeText
  refine congrArg (Decimal.parse text >>= ·) (funext fun number => ?_)
  cases ofDecimal? number <;> rfl

theorem ofText_eq_ok {text : String} {bits : UInt64} :
    ofText text = .ok bits ↔
      ∃ number, Decimal.parse text = .ok number ∧ ofDecimal? number = some bits := by
  rw [ofText_eq_writeText, Decimal.writeText_eq_ok]

/-- A text is read as the number that its word stands for, and the text of this
number has the same word. -/
theorem ofText_toText {text : String} {bits : UInt64} (written : ofText text = .ok bits) :
    Decimal.parse text = .ok (toDecimal bits) ∧ ofText (toDecimal bits).toText = .ok bits ∧
      2 ^ 63 ≤ bits.toNat := by
  obtain ⟨number, read, fits⟩ := ofText_eq_ok.mp written
  obtain ⟨reduced, bounded⟩ := Decimal.reduced_of_parse read
  obtain ⟨rfl, high⟩ := toDecimal_of_ofDecimal? reduced fits
  exact ⟨read, ofText_eq_ok.mpr ⟨_, Decimal.parse_toText reduced bounded, fits⟩, high⟩

end LedgerWire.IssuedValue
