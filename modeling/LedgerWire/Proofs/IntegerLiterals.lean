import LedgerWire.Json.Reader
import LedgerWire.Proofs.WholeNumbers
import Mathlib.Data.List.TakeWhile
import Mathlib.Tactic.FinCases

/-!
# Integers written in documents

The literal of an integer is read as this integer if it is within the 64 bits of a whole
number. Past these bits, and for a zero behind a minus, it is read as a binary
floating-point number, or refused as greater than any.
-/

namespace LedgerWire.Json

open Decimal (digitChar)

/-! ## Digits -/

private theorem digitValue_digitChar (digit : Fin 10) : digitValue (digitChar digit) = digit := by
  revert digit
  decide +kernel

/-- A digit is a digit to the reader of documents. -/
theorem isDigit_of_mem {digits : List (Fin 10)} : ∀ c ∈ digits.map digitChar, c.isDigit = true := by
  have isDigit : ∀ digit : Fin 10, (digitChar digit).isDigit = true := by
    decide +kernel
  intro c member
  obtain ⟨digit, _, rfl⟩ := List.mem_map.mp member
  exact isDigit digit

/-- What digits make of a number that stands in front of them. -/
def extended (value : Nat) (digits : List (Fin 10)) : Nat :=
  digits.foldl (fun (total : Nat) (digit : Fin 10) => total * 10 + digit.val) value

private theorem wholeValue_eq_extended (digits : List (Fin 10)) :
    Text.wholeValue digits = extended 0 digits := by
  rw [Text.wholeValue, Radix.value_eq_foldl, List.foldl_map]
  rfl

private theorem le_extended (value : Nat) (digits : List (Fin 10)) :
    value ≤ extended value digits := by
  induction digits generalizing value with
  | nil =>
      exact Nat.le_refl value
  | cons digit rest inductionHypothesis =>
      have further := inductionHypothesis (value * 10 + digit)
      rw [extended, List.foldl_cons]
      exact Nat.le_trans (by omega) further

/-- Digits are taken as long as 64 bits hold their number. -/
theorem accumulate_digits {value : Nat} (digits : List (Fin 10)) (small : value < 2 ^ 64) :
    (extended value digits < 2 ^ 64 →
      accumulate value (digits.map digitChar) = (extended value digits, [])) ∧
    (2 ^ 64 ≤ extended value digits → (accumulate value (digits.map digitChar)).2 ≠ []) := by
  induction digits generalizing value with
  | nil =>
      exact ⟨fun _ => rfl, fun great => absurd small (Nat.not_lt.mpr great)⟩
  | cons digit rest inductionHypothesis =>
      have next := le_extended (value * 10 + digit) rest
      simp only [extended, List.foldl_cons, List.map_cons, accumulate, digitValue_digitChar]
        at next ⊢
      by_cases fits : value * 10 + digit < 2 ^ 64
      · rw [if_pos fits]
        exact inductionHypothesis fits
      · rw [if_neg fits]
        exact ⟨fun _ => by omega, fun _ => List.cons_ne_nil _ _⟩

/-! ## Literals -/

/-- An integer as documents write it. -/
def integerLiteral (negative : Bool) (magnitude : Nat) : String :=
  (if negative then "-" else "") ++ toString magnitude

/-- Whether the literal is within the bits of a whole number. A zero behind a minus is
not. -/
def Representable (negative : Bool) (magnitude : Nat) : Prop :=
  if negative then 0 < magnitude ∧ magnitude ≤ 2 ^ 63 else magnitude < 2 ^ 64

/-- The number that a literal within these bits is read as. -/
def wholeNumber (negative : Bool) (magnitude : Nat) : Number :=
  if negative then .minus magnitude else .whole magnitude

private theorem ofWhole?_eq {negative : Bool} {magnitude : Nat} :
    (Representable negative magnitude →
      Number.ofWhole? negative magnitude = some (wholeNumber negative magnitude)) ∧
    (¬ Representable negative magnitude → ∀ number,
      Number.ofWhole? negative magnitude = some number → ∃ value, number = .float value) := by
  have isFloat {number : Number} (found : ((Binary64.ofDecimal? magnitude 0).map fun value =>
      Number.float { value with negative }) = some number) : ∃ value, number = .float value := by
    obtain ⟨value, _, rfl⟩ := Option.map_eq_some_iff.mp found
    exact ⟨_, rfl⟩
  cases negative with
  | false =>
      refine ⟨fun inside => if_pos inside, fun outside number found => ?_⟩
      have great : ¬ magnitude < 2 ^ 64 := outside
      rw [Number.ofWhole?, if_neg Bool.false_ne_true, if_neg great] at found
      exact isFloat found
  | true =>
      have edges : (magnitude = 0 ∨ 2 ^ 63 < magnitude) ↔ ¬ Representable true magnitude := by
        unfold Representable
        rw [if_pos rfl]
        omega
      refine ⟨fun inside => if_neg fun outside => edges.mp outside inside,
        fun outside number found => ?_⟩
      rw [Number.ofWhole?, if_pos rfl, if_pos (edges.mpr outside)] at found
      exact isFloat found

private theorem numberOfParts?_digits (negative : Bool) (digits : List (Fin 10)) :
    (Representable negative (Text.wholeValue digits) →
      numberOfParts? negative (digits.map digitChar) none none =
        some (wholeNumber negative (Text.wholeValue digits))) ∧
    (¬ Representable negative (Text.wholeValue digits) → ∀ number,
      numberOfParts? negative (digits.map digitChar) none none = some number →
        ∃ value, number = .float value) := by
  obtain ⟨fitting, exceeding⟩ := accumulate_digits digits (show 0 < 2 ^ 64 by omega)
  rw [wholeValue_eq_extended]
  by_cases fits : extended 0 digits < 2 ^ 64
  · have same : numberOfParts? negative (digits.map digitChar) none none =
        Number.ofWhole? negative (extended 0 digits) := by
      simp only [numberOfParts?, fitting fits, List.isEmpty_nil, if_true]
    rw [same]
    exact ofWhole?_eq
  · have outside : ¬ Representable negative (extended 0 digits) := by
      unfold Representable
      split
      · omega
      · exact fits
    refine ⟨fun inside => absurd inside outside, fun _ number found => ?_⟩
    have left := exceeding (Nat.not_lt.mp fits)
    have dropped : (accumulate 0 (digits.map digitChar)).2.isEmpty = false := by
      rwa [← Bool.not_eq_true, List.isEmpty_iff]
    simp only [numberOfParts?, dropped, Bool.false_eq_true, if_false] at found
    obtain ⟨value, _, rfl⟩ := Option.map_eq_some_iff.mp found
    exact ⟨_, rfl⟩

/-! ## Reading a literal -/

/-- A number is shown by its digits, without a zero in front. -/
theorem exists_digits (magnitude : Nat) : ∃ (first : Fin 10) (rest : List (Fin 10)),
    (toString magnitude).toList = (first :: rest).map digitChar ∧
      Text.wholeValue (first :: rest) = magnitude ∧ (first = 0 → rest = []) := by
  rw [Nat.toString_eq_ofList_toDigits, String.toList_ofList, Text.toDigits_eq_wholeDigits]
  by_cases isZero : magnitude = 0
  · exact ⟨0, [], by rw [if_pos isZero]; rfl, isZero.symm, fun _ => rfl⟩
  · rw [if_neg isZero]
    have kept := Text.head?_wholeDigits magnitude
    have spelled := Text.wholeValue_wholeDigits magnitude
    cases shown : Text.wholeDigits magnitude with
    | nil =>
        exact absurd (Text.wholeDigits_eq_nil_iff.mp shown) isZero
    | cons first rest =>
        rw [shown] at kept spelled
        exact ⟨first, rest, rfl, spelled, fun lead => absurd (congrArg some lead) kept⟩

private theorem readWhole_digits {first : Fin 10} {rest : List (Fin 10)}
    (lead : first = 0 → rest = []) :
    readWhole ((first :: rest).map digitChar) = some ((first :: rest).map digitChar, []) := by
  have others : ∀ digit : Fin 10, digit ≠ 0 → digitChar digit ≠ '0' := by
    decide +kernel
  by_cases isZero : first = 0
  · rw [lead isZero, isZero]
    rfl
  · have digits : readDigits ((first :: rest).map digitChar) =
        some ((first :: rest).map digitChar, []) := by
      rw [readDigits, List.takeWhile_eq_self_iff.mpr isDigit_of_mem,
        List.dropWhile_eq_nil_iff.mpr isDigit_of_mem]
      rfl
    unfold readWhole
    split
    · rename_i same
      exact absurd (List.cons.inj same).1 (others first isZero)
    · exact digits

private theorem readNumber_digits (negative : Bool) {first : Fin 10} {rest : List (Fin 10)}
    (lead : first = 0 → rest = []) :
    readNumber negative ((first :: rest).map digitChar) =
      some (numberOfParts? negative ((first :: rest).map digitChar) none none, []) := by
  rw [readNumber, readWhole_digits lead]
  rfl

private theorem begin_digits (reading : Reading) (fuel levels : Nat) (first : Fin 10)
    (rest : List Char) :
    Place.begin reading fuel ⟨levels, [], none, digitChar first :: rest⟩ =
      (readNumber false (digitChar first :: rest)).bind fun read =>
        (reading.numberOf? read.1).bind fun value => some ⟨levels, [], some value, read.2⟩ := by
  fin_cases first <;> rfl

private theorem begin_literal (reading : Reading) (fuel levels : Nat) (negative : Bool)
    {first : Fin 10} {rest : List (Fin 10)} (lead : first = 0 → rest = []) :
    Place.begin reading fuel ⟨levels, [], none,
        (if negative then ['-'] else []) ++ (first :: rest).map digitChar⟩ =
      (reading.numberOf? (numberOfParts? negative ((first :: rest).map digitChar) none none)).bind
        fun value => some ⟨levels, [], some value, []⟩ := by
  have number := readNumber_digits negative lead
  cases negative with
  | false =>
      change Place.begin reading fuel ⟨levels, [], none, (first :: rest).map digitChar⟩ = _
      rw [List.map_cons, begin_digits, ← List.map_cons, number]
      rfl
  | true =>
      change (readNumber true ((first :: rest).map digitChar)).bind _ = _
      rw [number]
      rfl

/-- A text that is one value without parts is read in one step. -/
theorem parseWith_of_begin {reading : Reading} {text : String} {found : Option Json}
    (nonempty : text.toList ≠ [])
    (begun : ∀ fuel, Place.begin reading fuel ⟨reading.levels, [], none, text.toList⟩ =
      found.bind fun value => some ⟨reading.levels, [], some value, []⟩) :
    parseWith reading text = found := by
  obtain ⟨first, rest, characters⟩ := List.exists_cons_of_ne_nil nonempty
  rw [characters] at begun
  rw [parseWith, characters]
  have steps : Place.run reading ((first :: rest).length + 1)
      ⟨reading.levels, [], none, first :: rest⟩ = found.bind fun value => some (value, []) := by
    rw [List.length_cons, Place.run]
    simp only [begun]
    cases found <;> rfl
  dsimp only
  rw [steps]
  cases found <;> rfl

theorem parse?_eq_numberOfParts? (negative : Bool) (magnitude : Nat) :
    parse? (integerLiteral negative magnitude) =
      (numberOfParts? negative (toString magnitude).toList none none).map .number := by
  obtain ⟨first, rest, shown, _, lead⟩ := exists_digits magnitude
  have characters : (integerLiteral negative magnitude).toList =
      (if negative then ['-'] else []) ++ (first :: rest).map digitChar := by
    rw [integerLiteral, String.toList_append, shown]
    cases negative <;> rfl
  have nonempty : (integerLiteral negative magnitude).toList ≠ [] := by
    rw [characters]
    exact List.append_ne_nil_of_right_ne_nil _ (List.cons_ne_nil _ _)
  rw [shown, parse?, parseWith_of_begin nonempty fun fuel => by
    rw [characters]
    exact begin_literal _ fuel _ negative lead]
  exact Option.or_none

/-- The literal of an integer is read as the integer within the bits of a whole number,
and past them as a floating-point number, if at all. -/
theorem parse?_integerLiteral (negative : Bool) (magnitude : Nat) :
    (Representable negative magnitude → parse? (integerLiteral negative magnitude) =
      some (.number (wholeNumber negative magnitude))) ∧
    (¬ Representable negative magnitude → ∀ json,
      parse? (integerLiteral negative magnitude) = some json →
        ∃ value, json = .number (.float value)) := by
  obtain ⟨first, rest, shown, rfl, _⟩ := exists_digits magnitude
  obtain ⟨inside, outside⟩ := numberOfParts?_digits negative (first :: rest)
  rw [parse?_eq_numberOfParts?, shown]
  refine ⟨fun representable => by rw [inside representable]; rfl, fun exceeds json found => ?_⟩
  obtain ⟨number, made, rfl⟩ := Option.map_eq_some_iff.mp found
  obtain ⟨value, rfl⟩ := outside exceeds number made
  exact ⟨value, rfl⟩

end LedgerWire.Json
