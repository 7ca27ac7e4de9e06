import LedgerWire.Radix
import Mathlib.Data.Nat.Digits.Lemmas

/-!
# Digits of a number

Taking a number apart by halves gives its digits in the usual order. So the
digits determine the number, and, but for leading zeros, the number its digits.
-/

namespace LedgerWire.Radix

private theorem horner_eq_ofDigits (base : Nat) (digits : List Nat) :
    horner base digits = Nat.ofDigits base digits := by
  induction digits with
  | nil =>
      rfl
  | cons digit rest inductionHypothesis =>
      rw [Nat.ofDigits_cons, ← inductionHypothesis]
      simp only [horner, List.foldr_cons]
      rw [Nat.mul_comm, Nat.add_comm]

theorem value_eq_ofDigits (base : Nat) (digits : List Nat) :
    value base digits = Nat.ofDigits base digits.reverse := by
  rw [value, lowValue_eq_horner _ _ _ (by simp), horner_eq_ofDigits]

private theorem lowDigits_lt {rounds base number : Nat} (large : 1 < base)
    (enough : number < base ^ 2 ^ rounds) :
    ∀ digit ∈ lowDigits rounds base number, digit < base := by
  induction rounds generalizing base with
  | zero =>
      simpa [lowDigits] using enough
  | succ rounds inductionHypothesis =>
      rw [lowDigits]
      split
      · rename_i single
        simpa using single
      · intro digit member
        obtain ⟨wide, wideMember, part⟩ := List.mem_flatMap.mp member
        have square : base ^ 2 ^ (rounds + 1) = (base * base) ^ 2 ^ rounds := by
          rw [← pow_two, ← pow_mul, pow_succ, Nat.mul_comm]
        have wideBound : wide < base * base :=
          inductionHypothesis (Nat.one_lt_mul_iff.mpr ⟨by omega, by omega, Or.inl large⟩)
            (square ▸ enough) wide wideMember
        simp only [List.mem_cons, List.not_mem_nil, or_false] at part
        rcases part with rfl | rfl
        · exact Nat.mod_lt _ (by omega)
        · exact Nat.div_lt_of_lt_mul wideBound

private theorem lt_pow_log2 {base : Nat} (large : 1 < base) (number : Nat) :
    number < base ^ 2 ^ number.log2 := by
  calc
    number < 2 ^ (number.log2 + 1) := Nat.lt_log2_self
    _ ≤ 2 ^ 2 ^ number.log2 := Nat.pow_le_pow_right (by omega) Nat.lt_two_pow_self
    _ ≤ base ^ 2 ^ number.log2 := Nat.pow_le_pow_left large _

theorem mem_of_mem_dropWhile {α : Type} {test : α → Bool} {item : α} {items : List α}
    (member : item ∈ items.dropWhile test) : item ∈ items :=
  (List.dropWhile_sublist test).subset member

theorem digits_lt {base : Nat} (large : 1 < base) (number : Nat) :
    ∀ digit ∈ digits base number, digit < base := by
  intro digit member
  have present := mem_of_mem_dropWhile member
  exact lowDigits_lt large (lt_pow_log2 large number) digit (List.mem_reverse.mp present)

private theorem getLast_trimmed_ne_zero (spelled : List Nat)
    (nonempty : (spelled.dropWhile (· == 0)).reverse ≠ []) :
    (spelled.dropWhile (· == 0)).reverse.getLast nonempty ≠ 0 := by
  rw [List.getLast_reverse]
  have kept := List.head_dropWhile_not (fun digit : Nat => digit == 0)
    (List.reverse_ne_nil_iff.mp nonempty)
  simpa using kept

/-- The digits are those of the library, in the other order. -/
theorem digits_eq_reverse {base : Nat} (large : 1 < base) (number : Nat) :
    digits base number = (Nat.digits base number).reverse := by
  have bounded : ∀ digit ∈ (digits base number).reverse, digit < base := by
    intro digit member
    exact digits_lt large number digit (List.mem_reverse.mp member)
  have rebuilt := Nat.digits_ofDigits base large _ bounded (getLast_trimmed_ne_zero _)
  rw [← value_eq_ofDigits, value_digits] at rebuilt
  rw [rebuilt, List.reverse_reverse]

/-- The digits of the number that digits spell are these without leading zeros. -/
theorem digits_value {base : Nat} (large : 1 < base) {spelled : List Nat}
    (bounded : ∀ digit ∈ spelled, digit < base) :
    digits base (value base spelled) = spelled.dropWhile (· == 0) := by
  have trimmed : ∀ digit ∈ (spelled.dropWhile (· == 0)).reverse, digit < base := by
    intro digit member
    exact bounded digit (mem_of_mem_dropWhile (List.mem_reverse.mp member))
  rw [← value_dropWhile_zero, digits_eq_reverse large, value_eq_ofDigits,
    Nat.digits_ofDigits base large _ trimmed (getLast_trimmed_ne_zero spelled),
    List.reverse_reverse]

theorem length_digits_le_iff {base : Nat} (large : 1 < base) (number count : Nat) :
    (digits base number).length ≤ count ↔ number < base ^ count := by
  rw [digits_eq_reverse large, List.length_reverse, Nat.digits_length_le_iff large]

theorem value_lt {base : Nat} (large : 1 < base) {spelled : List Nat}
    (bounded : ∀ digit ∈ spelled, digit < base) :
    value base spelled < base ^ spelled.length := by
  rw [value_eq_ofDigits, ← List.length_reverse]
  exact Nat.ofDigits_lt_base_pow_length large fun digit member =>
    bounded digit (List.mem_reverse.mp member)

theorem value_replicate_zero (base count : Nat) (rest : List Nat) :
    value base (List.replicate count 0 ++ rest) = value base rest := by
  induction count with
  | zero =>
      rfl
  | succ count inductionHypothesis =>
      rw [List.replicate_succ, List.cons_append, value_cons, inductionHypothesis]
      simp

end LedgerWire.Radix
