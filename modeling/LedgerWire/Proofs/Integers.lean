import LedgerWire.Proofs.NormalForm
import LedgerWire.Proofs.Positional
import LedgerWire.Value.Unsigned

/-!
# Unsigned integers

The number that a document gives for an integer field is the one its normal form
gives again.
-/

namespace LedgerWire

/-! ## Digits and octets -/

private theorem Radix.eq_of_value_eq {base : Nat} (large : 1 < base) {left right : List Nat}
    (leftBound : ∀ digit ∈ left, digit < base) (rightBound : ∀ digit ∈ right, digit < base)
    (sizes : left.length = right.length) (same : value base left = value base right) :
    left = right := by
  rw [value_eq_ofDigits, value_eq_ofDigits] at same
  apply List.reverse_injective
  refine Nat.ofDigits_inj_of_len_eq large (by simpa using sizes) ?_ ?_ same
  · simpa using leftBound
  · simpa using rightBound

namespace Hex

private theorem value_halves (bytes : Bytes) :
    Radix.value 16 (halves bytes) = Bytes.toNat bytes := by
  rw [Radix.value_eq_foldl, Bytes.toNat]
  generalize 0 = start
  induction bytes generalizing start with
  | nil =>
      rfl
  | cons byte rest inductionHypothesis =>
      have whole : (start * 16 + byte.toNat / 16) * 16 + byte.toNat % 16 =
          start * 256 + byte.toNat := by
        omega
      rw [halves_cons, List.foldl_cons, List.foldl_cons, List.foldl_cons, whole,
        inductionHypothesis]

theorem encode_ofNat_mod (width value : Nat) :
    encode (Bytes.ofNat width (value % 256 ^ width)) = encode (Bytes.ofNat width value) := by
  rw [← Bytes.toNat_ofNat]
  congr 1
  simpa using Bytes.ofNat_toNat (Bytes.ofNat width value)

/-- Digits with zeros in front show the octets of their number. -/
theorem padded_upper {text : String} {digits : List Nat} (spells : Spells text digits)
    {width : Nat} (fits : digits.length ≤ 2 * width) :
    Text.padded (2 * width) (Text.upper text) =
      encode (Bytes.ofNat width (Radix.value 16 digits)) := by
  have bounded : ∀ digit ∈ List.replicate (2 * width - digits.length) 0 ++ digits, digit < 16 := by
    intro digit member
    rcases List.mem_append.mp member with padding | spelled
    · rw [List.eq_of_mem_replicate padding]
      omega
    · exact spells.lt digit spelled
  have small : Radix.value 16 digits < 256 ^ width := by
    calc
      Radix.value 16 digits < 16 ^ digits.length := Radix.value_lt (by omega) spells.lt
      _ ≤ 16 ^ (2 * width) := Nat.pow_le_pow_right (by omega) fits
      _ = 256 ^ width := by rw [Nat.pow_mul]
  have same : List.replicate (2 * width - digits.length) 0 ++ digits =
      halves (Bytes.ofNat width (Radix.value 16 digits)) := by
    apply Radix.eq_of_value_eq (by omega) bounded (halves_lt _)
    · simp
      omega
    · rw [Radix.value_replicate_zero, value_halves, Bytes.toNat_ofNat_of_lt small]
  have zero : digit 0 = '0' := rfl
  rw [encode_eq_halves, ← same, Text.padded, spells.upper, String.toList_ofList,
    List.map_append, List.map_replicate, zero, ← String.length_toList, String.toList_ofList,
    List.length_map]

end Hex

/-! ## Integers of up to four octets -/

namespace Unsigned

variable {typeName : String} {json : Json} {value : Nat}

theorem wideOfJson_eq_ok (read : wideOfJson typeName json = .ok value) :
    json = .number (.whole value) ∨
      ∃ text number, json = .string text ∧ Text.signed? text.toList = some number ∧
        number.toNat = value ∧ value < 2 ^ 64 := by
  unfold wideOfJson at read
  split at read
  · rename_i number
    cases number with
    | whole whole =>
        cases read
        exact .inl rfl
    | minus whole =>
        simp [Number.toUnsigned?, Number.toSigned?] at read
    | float whole =>
        simp [Number.toUnsigned?, Number.toSigned?] at read
  · rename_i text
    cases found : ofText? text with
    | none =>
        simp [found] at read
    | some number =>
        simp only [found] at read
        split at read
        · rename_i range
          cases read
          refine .inr ⟨text, number, rfl, ?_, rfl, by omega⟩
          unfold ofText? at found
          exact (Option.filter_eq_some_iff.mp found).1
        · cases read
  · cases read

theorem ofJson_eq_ok {width : Nat} :
    ofJson typeName width json = .ok value ↔
      wideOfJson typeName json = .ok value ∧ value < 256 ^ width := by
  unfold ofJson
  simp only [Outcome.bind_eq_ok]
  constructor
  · rintro ⟨wide, read, checked⟩
    split at checked
    · cases checked
      exact ⟨read, ‹_›⟩
    · cases checked
  · rintro ⟨read, bound⟩
    exact ⟨value, read, by rw [if_pos bound]; rfl⟩

/-- A small integer is shown as a number, and read from this number again. -/
theorem narrow_of_ofJson {width : Nat} (read : ofJson typeName width json = .ok value) :
    NormalForm.narrow json = Json.ofNat value ∧
      ofJson typeName width (Json.ofNat value) = .ok value ∧ value < 256 ^ width := by
  obtain ⟨wide, bound⟩ := ofJson_eq_ok.mp read
  refine ⟨?_, ofJson_eq_ok.mpr ⟨rfl, bound⟩, bound⟩
  rcases wideOfJson_eq_ok wide with rfl | ⟨text, number, rfl, spelled, rfl, _⟩
  · rfl
  · rw [NormalForm.narrow, spelled, Option.getD_some]

/-! ## Integers of eight octets -/

theorem ofHex_eq_ok {text : String} :
    ofHex text = .ok value ↔
      ∃ digits, Hex.Spells text digits ∧ digits ≠ [] ∧ digits.length ≤ 16 ∧
        Radix.value 16 digits = value := by
  unfold ofHex Hex.Spells
  dsimp only
  cases (Bytes.ofText text).mapM Hex.digitValue? with
  | none =>
      simp
  | some digits =>
      dsimp only
      by_cases outside : digits.isEmpty ∨ 16 < digits.length
      · rw [if_pos outside]
        simp only [List.isEmpty_iff] at outside
        constructor
        · intro impossible
          cases impossible
        · rintro ⟨_, same, nonempty, few, _⟩
          cases same
          rcases outside with empty | many
          · exact absurd empty nonempty
          · omega
      · rw [if_neg outside, Except.ok.injEq]
        simp only [List.isEmpty_iff, not_or, Nat.not_lt] at outside
        constructor
        · rintro rfl
          exact ⟨digits, rfl, outside.1, outside.2, rfl⟩
        · rintro ⟨_, same, _, _, rfl⟩
          cases same
          rfl

/-- A wide integer is shown by sixteen digits, and read from these again. -/
theorem wide_of_ofHexJson (read : ofHexJson json = .ok value) :
    NormalForm.wide json = .string (Hex.encode (Bytes.ofNat 8 value)) ∧
      ofHexJson (.string (Hex.encode (Bytes.ofNat 8 value))) = .ok (value % 2 ^ 64) := by
  constructor
  · unfold ofHexJson at read
    split at read
    · rename_i text
      obtain ⟨digits, spells, _, few, rfl⟩ := ofHex_eq_ok.mp read
      rw [NormalForm.wide, ← Hex.padded_upper spells few]
    · rcases wideOfJson_eq_ok read with same | ⟨text, number, same, _⟩
      · cases same
        rfl
      · cases same
    · cases read
  · refine ofHex_eq_ok.mpr ⟨_, Hex.spells_encode _, ?_, by simp, ?_⟩
    · intro empty
      have size := congrArg List.length empty
      simp at size
    · rw [Hex.value_halves, Bytes.toNat_ofNat]

end Unsigned

end LedgerWire
