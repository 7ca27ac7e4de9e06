namespace LedgerWire.Radix

/-! ## Powers

Powers are those of natural exponents, also where a library has its own. -/

attribute [instance (20000)] instPowNat
attribute [default_instance 20000] instPowNat

/-! ## Positional digits

A number of many digits is put together and taken apart by halves. The work then
lies in few operations on large numbers, and not in one for each digit. -/

/-- Joins each two neighbours of digits that stand least significant first, which
gives half as many digits to the square of the base. Those found so far stand in
`done` in reverse. -/
def joinedOnto (base : Nat) (done : List Nat) : List Nat → List Nat
  | low :: high :: rest => joinedOnto base ((high * base + low) :: done) rest
  | digits => done.reverse ++ digits

def joined (base : Nat) (digits : List Nat) : List Nat := joinedOnto base [] digits

/-- The number whose digits stand least significant first. Every round halves the
digits, so there need not be more rounds than digits. -/
def lowValue : (rounds base : Nat) → List Nat → Nat
  | _, _, [] => 0
  | _, _, [digit] => digit
  | 0, _, _ => 0
  | rounds + 1, base, digits => lowValue rounds (base * base) (joined base digits)

/-- The number with these digits, most significant first. -/
def value (base : Nat) (digits : List Nat) : Nat :=
  lowValue digits.length base digits.reverse

/-- The digits of a number, least significant first, with zeros behind them. Every
round squares the base, so the binary logarithm bounds the rounds. -/
def lowDigits : (rounds base number : Nat) → List Nat
  | 0, _, number => [number]
  | rounds + 1, base, number =>
      if number < base then
        [number]
      else
        (lowDigits rounds (base * base) number).flatMap fun digit =>
          [digit % base, digit / base]

/-- The digits of a number to a base, most significant first; zero has none. -/
def digits (base number : Nat) : List Nat :=
  (lowDigits number.log2 base number).reverse.dropWhile (· == 0)

/-! ## Digits determine the number -/

/-- The digits are read from the least significant one on. -/
def horner (base : Nat) (digits : List Nat) : Nat :=
  digits.foldr (fun digit value => value * base + digit) 0

private theorem horner_append (base : Nat) (left right : List Nat) :
    horner base (left ++ right) = horner base left + base ^ left.length * horner base right := by
  induction left with
  | nil => simp [horner]
  | cons digit rest inductionHypothesis =>
      simp only [horner, List.cons_append, List.foldr_cons, List.length_cons,
        Nat.pow_succ] at inductionHypothesis ⊢
      rw [inductionHypothesis]
      grind

private theorem horner_joinedOnto (base : Nat) (done digits : List Nat) :
    horner (base * base) (joinedOnto base done digits) =
      horner (base * base) done.reverse + (base * base) ^ done.length * horner base digits := by
  fun_induction joinedOnto base done digits with
  | case1 done low high rest inductionHypothesis =>
      rw [inductionHypothesis, List.reverse_cons, horner_append, List.length_reverse]
      simp only [horner, List.foldr_cons, List.foldr_nil, List.length_cons, Nat.pow_succ]
      grind
  | case2 done digits short =>
      have same : horner (base * base) digits = horner base digits := by
        match digits, short with
        | [], _ => rfl
        | [digit], _ => simp [horner]
        | low :: high :: rest, short => exact absurd rfl (short low high rest)
      rw [horner_append, same, List.length_reverse]

private theorem horner_joined (base : Nat) (digits : List Nat) :
    horner (base * base) (joined base digits) = horner base digits := by
  rw [joined, horner_joinedOnto]
  simp [horner]

private theorem length_joinedOnto_le (base : Nat) (done digits : List Nat) :
    (joinedOnto base done digits).length ≤ done.length + digits.length := by
  fun_induction joinedOnto base done digits with
  | case1 done low high rest inductionHypothesis =>
      simp only [List.length_cons] at inductionHypothesis ⊢
      omega
  | case2 done digits short => simp

theorem lowValue_eq_horner (rounds base : Nat) (digits : List Nat)
    (enough : digits.length ≤ rounds) : lowValue rounds base digits = horner base digits := by
  induction rounds generalizing base digits with
  | zero =>
      have isEmpty : digits = [] := List.eq_nil_of_length_eq_zero (by omega)
      rw [isEmpty]
      rfl
  | succ rounds inductionHypothesis =>
      match digits with
      | [] => rfl
      | [digit] => simp [lowValue, horner]
      | low :: high :: rest =>
          have shorter := length_joinedOnto_le base [high * base + low] rest
          have bound : (joined base (low :: high :: rest)).length ≤ rounds := by
            simp only [joined, joinedOnto, List.length_cons, List.length_nil] at enough shorter ⊢
            omega
          rw [lowValue, inductionHypothesis _ _ bound, horner_joined]
          all_goals simp

theorem value_eq_foldl (base : Nat) (digits : List Nat) :
    value base digits = digits.foldl (fun value digit => value * base + digit) 0 := by
  rw [value, lowValue_eq_horner _ _ _ (by simp), horner, List.foldr_reverse]

@[simp]
theorem value_nil (base : Nat) : value base [] = 0 := rfl

private theorem foldl_eq (base start : Nat) (digits : List Nat) :
    digits.foldl (fun value digit => value * base + digit) start =
      start * base ^ digits.length + value base digits := by
  induction digits generalizing start with
  | nil => simp
  | cons digit rest inductionHypothesis =>
      rw [value_eq_foldl, List.foldl_cons, List.foldl_cons, inductionHypothesis,
        inductionHypothesis (0 * base + digit), List.length_cons, Nat.pow_succ]
      grind

theorem value_cons (base digit : Nat) (rest : List Nat) :
    value base (digit :: rest) = digit * base ^ rest.length + value base rest := by
  rw [value_eq_foldl, List.foldl_cons, foldl_eq]
  simp

theorem value_append (base : Nat) (left right : List Nat) :
    value base (left ++ right) = value base left * base ^ right.length + value base right := by
  rw [value_eq_foldl, List.foldl_append, foldl_eq, ← value_eq_foldl]

private theorem horner_lowDigits (rounds base number : Nat) :
    horner base (lowDigits rounds base number) = number := by
  have horner_split (base : Nat) (digits : List Nat) :
      horner base (digits.flatMap fun digit => [digit % base, digit / base]) =
        horner (base * base) digits := by
    induction digits with
    | nil => rfl
    | cons digit rest inductionHypothesis =>
        have split := Nat.div_add_mod digit base
        simp only [horner, List.flatMap_cons, List.foldr_append, List.foldr_cons,
          List.foldr_nil] at inductionHypothesis ⊢
        rw [inductionHypothesis]
        grind
  induction rounds generalizing base with
  | zero => simp [lowDigits, horner]
  | succ rounds inductionHypothesis =>
      rw [lowDigits]
      split
      · simp [horner]
      · rw [horner_split, inductionHypothesis]

theorem value_dropWhile_zero (base : Nat) (digits : List Nat) :
    value base (digits.dropWhile (· == 0)) = value base digits := by
  induction digits with
  | nil => rfl
  | cons digit rest inductionHypothesis =>
      by_cases isZero : digit = 0
      · simp [isZero, value_cons, inductionHypothesis]
      · simp [isZero]

theorem value_digits (base number : Nat) : value base (digits base number) = number := by
  rw [digits, value_dropWhile_zero, value_eq_foldl, List.foldl_reverse]
  exact horner_lowDigits number.log2 base number

end LedgerWire.Radix
