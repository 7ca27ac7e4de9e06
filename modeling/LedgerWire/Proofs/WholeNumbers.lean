import LedgerWire.Decimal.Printer
import LedgerWire.Proofs.Outcome
import LedgerWire.Proofs.Positional
import LedgerWire.Text.Whole

/-!
# Whole numbers in decimal

A text of digits is read as the number they spell, and the text of that number
is the same without its leading zeros.
-/

namespace LedgerWire.Text

open Decimal (digitChar)

/-! ## Digits -/

theorem digit?_eq_some {c : Char} {digit : Fin 10} :
    digit? c = some digit ↔ c = digitChar digit := by
  have shown : ∀ digit : Fin 10, digit? (digitChar digit) = some digit := by
    decide +kernel
  constructor
  · intro read
    unfold digit? at read
    split at read
    · rename_i isDigit
      have range : 48 ≤ c.toNat ∧ c.toNat ≤ 57 := by
        simpa [Char.isDigit, UInt32.le_iff_toNat_le] using isDigit
      have value : digit.val = c.toNat - 48 := by
        rw [← Option.some.inj read]
        exact Nat.mod_eq_of_lt (by omega)
      rw [digitChar, value, Nat.add_sub_cancel' range.1, Char.ofNat_toNat]
    · cases read
  · rintro rfl
    exact shown digit

theorem mapM_digit?_eq_some {text : List Char} {digits : List (Fin 10)} :
    text.mapM digit? = some digits ↔ text = digits.map digitChar := by
  rw [Outcome.mapM_eq_some]
  simp only [digit?_eq_some]
  rw [← List.forall₂_map_right_iff, List.forall₂_eq_eq_eq]

theorem whole?_eq_some {text : List Char} {value : Nat} :
    whole? text = some value ↔
      ∃ digits : List (Fin 10), digits ≠ [] ∧ text = digits.map digitChar ∧
        wholeValue digits = value := by
  simp only [whole?, bind, Option.bind_eq_some_iff, mapM_digit?_eq_some]
  constructor
  · rintro ⟨digits, shown, checked⟩
    by_cases empty : digits = []
    · simp [empty] at checked
    · exact ⟨digits, empty, shown, by simpa [empty] using checked⟩
  · rintro ⟨digits, nonempty, shown, rfl⟩
    exact ⟨digits, shown, by simp [nonempty]⟩

theorem whole?_digits {digits : List (Fin 10)} (nonempty : digits ≠ []) :
    whole? (digits.map digitChar) = some (wholeValue digits) :=
  whole?_eq_some.mpr ⟨digits, nonempty, rfl, rfl⟩

/-! ## Digits of a number -/

/-- The digits of a number; zero has none. -/
def wholeDigits (value : Nat) : List (Fin 10) := (Radix.digits 10 value).map (Fin.ofNat 10)

theorem map_val_lt (digits : List (Fin 10)) : ∀ digit ∈ digits.map Fin.val, digit < 10 := by
  intro digit member
  obtain ⟨small, _, rfl⟩ := List.mem_map.mp member
  exact small.isLt

private theorem map_val_wholeDigits (value : Nat) :
    (wholeDigits value).map Fin.val = Radix.digits 10 value := by
  rw [wholeDigits, List.map_map]
  refine (List.map_congr_left fun digit member => ?_).trans (List.map_id _)
  exact Nat.mod_eq_of_lt (Radix.digits_lt (by omega) value digit member)

@[simp]
theorem wholeValue_wholeDigits (value : Nat) : wholeValue (wholeDigits value) = value := by
  rw [wholeValue, map_val_wholeDigits, Radix.value_digits]

theorem wholeDigits_wholeValue (digits : List (Fin 10)) :
    wholeDigits (wholeValue digits) = digits.dropWhile (· == 0) := by
  have isZero : (fun digit : Nat => digit == 0) ∘ Fin.val = fun digit : Fin 10 => digit == 0 := by
    funext digit
    revert digit
    decide
  have restored : Fin.ofNat 10 ∘ Fin.val = (id : Fin 10 → Fin 10) := by
    funext digit
    revert digit
    decide
  rw [wholeDigits, wholeValue, Radix.digits_value (by omega) (map_val_lt digits),
    List.dropWhile_map, isZero, List.map_map, restored, List.map_id]

theorem wholeValue_append (left right : List (Fin 10)) :
    wholeValue (left ++ right) = wholeValue left * 10 ^ right.length + wholeValue right := by
  rw [wholeValue, List.map_append, Radix.value_append, List.length_map]
  rfl

theorem wholeValue_zeros (count : Nat) : wholeValue (List.replicate count (0 : Fin 10)) = 0 := by
  have none := Radix.value_replicate_zero 10 count []
  rw [List.append_nil] at none
  rw [wholeValue, List.map_replicate]
  exact none

/-- Digits that start with one that is not zero spell as great a number as they are many. -/
theorem pow_le_wholeValue {first : Fin 10} (nonzero : first ≠ 0) (rest : List (Fin 10)) :
    10 ^ rest.length ≤ wholeValue (first :: rest) := by
  have positive : 1 ≤ first.val := Nat.one_le_iff_ne_zero.mpr fun isZero => nonzero (Fin.ext isZero)
  rw [wholeValue, List.map_cons, Radix.value_cons, List.length_map]
  calc 10 ^ rest.length = 1 * 10 ^ rest.length := (Nat.one_mul _).symm
    _ ≤ first.val * 10 ^ rest.length := Nat.mul_le_mul_right _ positive
    _ ≤ first.val * 10 ^ rest.length + Radix.value 10 (rest.map Fin.val) := Nat.le_add_right _ _

/-- The digits of a number do not start with a zero. -/
theorem head?_wholeDigits (value : Nat) : (wholeDigits value).head? ≠ some 0 := by
  have again := wholeDigits_wholeValue (wholeDigits value)
  rw [wholeValue_wholeDigits] at again
  have kept := List.head?_dropWhile_not (fun digit : Fin 10 => digit == 0) (wholeDigits value)
  rw [← again] at kept
  intro isZero
  rw [isZero] at kept
  cases kept

theorem length_wholeDigits {value count : Nat} (low : 10 ^ count ≤ value)
    (high : value < 10 ^ (count + 1)) : (wholeDigits value).length = count + 1 := by
  have most := (Radix.length_digits_le_iff (by omega) value (count + 1)).mpr high
  have least := mt (Radix.length_digits_le_iff (by omega) value count).mp (Nat.not_lt.mpr low)
  rw [wholeDigits, List.length_map]
  omega

private theorem wholeDigits_of_pos {value : Nat} (positive : 0 < value) :
    wholeDigits value = wholeDigits (value / 10) ++ [Fin.ofNat 10 value] := by
  simp only [wholeDigits, Radix.digits_eq_reverse (show 1 < 10 by omega)]
  rw [Nat.digits_def' (by omega) positive]
  simp [Fin.ofNat]

theorem wholeDigits_eq_nil_iff {value : Nat} : wholeDigits value = [] ↔ value = 0 := by
  constructor
  · intro none
    rw [← wholeValue_wholeDigits value, none]
    rfl
  · rintro rfl
    rfl

/-- The text of a number shows its digits, and a zero if there are none. -/
theorem toDigits_eq_wholeDigits (value : Nat) :
    Nat.toDigits 10 value = if value = 0 then ['0'] else (wholeDigits value).map digitChar := by
  have last : ∀ digit < 10, Nat.digitChar digit = digitChar (Fin.ofNat 10 digit) := by
    decide
  induction value using Nat.strong_induction_on with
  | h value inductionHypothesis =>
      by_cases isZero : value = 0
      · rw [isZero]
        rfl
      · rw [Nat.toDigits_eq_if (by omega), if_neg isZero, wholeDigits_of_pos (by omega)]
        by_cases single : value < 10
        · have none : wholeDigits (value / 10) = [] := wholeDigits_eq_nil_iff.mpr (by omega)
          simp [single, none, last value single]
        · have remainder : Fin.ofNat 10 (value % 10) = Fin.ofNat 10 value := by
            simp [Fin.ofNat]
          rw [if_neg single, inductionHypothesis (value / 10) (by omega), if_neg (by omega),
            List.map_append, List.map_singleton, last _ (Nat.mod_lt value (by omega)), remainder]

theorem whole?_toDigits (value : Nat) : whole? (Nat.toDigits 10 value) = some value := by
  rw [whole?_eq_some, toDigits_eq_wholeDigits]
  by_cases isZero : value = 0
  · exact ⟨[0], by simp, by simp [isZero, digitChar],
      by simp [isZero, wholeValue, Radix.value_cons]⟩
  · refine ⟨wholeDigits value, ?_, by rw [if_neg isZero], wholeValue_wholeDigits value⟩
    rwa [ne_eq, wholeDigits_eq_nil_iff]

theorem whole?_toString (value : Nat) : whole? (toString value).toList = some value := by
  rw [Nat.toString_eq_ofList_toDigits, String.toList_ofList, whole?_toDigits]

/-! ## Leading zeros -/

/-- The text without zeros in front, of which a single one stays if nothing else
is there. -/
def withoutZeros (text : String) : String :=
  match text.toList.dropWhile (· == '0') with
  | [] => "0"
  | first :: rest => String.ofList (first :: rest)

/-- A text of digits shows its number but for leading zeros. -/
theorem toString_of_whole? {text : String} {value : Nat}
    (read : whole? text.toList = some value) : toString value = withoutZeros text := by
  obtain ⟨digits, _, shown, rfl⟩ := whole?_eq_some.mp read
  have isZero : (fun c : Char => c == '0') ∘ digitChar = fun digit : Fin 10 => digit == 0 := by
    funext digit
    revert digit
    decide
  have kept : text.toList.dropWhile (· == '0') =
      (wholeDigits (wholeValue digits)).map digitChar := by
    rw [shown, List.dropWhile_map, isZero, wholeDigits_wholeValue]
  rw [withoutZeros, kept, Nat.toString_eq_ofList_toDigits, toDigits_eq_wholeDigits]
  by_cases none : wholeValue digits = 0
  · rw [none]
    rfl
  · rw [if_neg none]
    cases spelled : wholeDigits (wholeValue digits) with
    | nil =>
        exact absurd (wholeDigits_eq_nil_iff.mp spelled) none
    | cons first rest =>
        rfl

end LedgerWire.Text
