import LedgerWire.Decimal.Parser
import LedgerWire.Proofs.WholeNumbers

/-!
# Spellings of decimals

The grammar of decimal texts is told by the parts of a text: perhaps a sign, digits
with at most one point among them, and perhaps an exponent. What is read from the
parts is known, and every text that is read has such parts.
-/

namespace LedgerWire.Decimal

/-! ## Signs -/

/-- A sign that is written in front of digits. -/
inductive Sign
  | plus
  | minus

namespace Sign

def char : Sign → Char
  | .plus => '+'
  | .minus => '-'

def chars (sign : Option Sign) : List Char := (sign.map char).toList

def isMinus : Option Sign → Bool
  | some .minus => true
  | _ => false

end Sign

/-- The value or its negative. -/
def signed {α : Type} [Neg α] (negative : Bool) (value : α) : α :=
  if negative then -value else value

/-- A digit is no sign, no point and no exponent mark. -/
theorem digitChar_plain (digit : Fin 10) :
    digitChar digit ≠ '-' ∧ digitChar digit ≠ '+' ∧ digitChar digit ≠ '.' ∧
      isExponentMark (digitChar digit) = false := by
  revert digit
  decide +kernel

private theorem splitSign_chars (sign : Option Sign) {body : List Char}
    (bare : ∀ c ∈ body.head?, c ≠ '-' ∧ c ≠ '+') :
    Text.splitSign (Sign.chars sign ++ body) = (Sign.isMinus sign, body) := by
  cases sign with
  | some sign =>
      cases sign <;> rfl
  | none =>
      cases body with
      | nil =>
          rfl
      | cons first rest =>
          obtain ⟨noMinus, noPlus⟩ := bare first rfl
          change Text.splitSign (first :: rest) = (false, first :: rest)
          unfold Text.splitSign
          split
          · rename_i same
            exact absurd (List.cons.inj same).1 noMinus
          · rename_i same
            exact absurd (List.cons.inj same).1 noPlus
          · rfl

theorem exists_sign (text : List Char) :
    ∃ sign, text = Sign.chars sign ++ (Text.splitSign text).2 := by
  unfold Text.splitSign
  split
  · exact ⟨some .minus, rfl⟩
  · exact ⟨some .plus, rfl⟩
  · exact ⟨none, rfl⟩

theorem head?_digits (digits : List (Fin 10)) :
    ∀ c ∈ (digits.map digitChar).head?, c ≠ '-' ∧ c ≠ '+' := by
  intro c first
  obtain ⟨digit, _, rfl⟩ := List.mem_map.mp (List.mem_of_mem_head? first)
  exact ⟨(digitChar_plain digit).1, (digitChar_plain digit).2.1⟩

/-! ## Exponents -/

/-- An exponent as it is written: a mark, perhaps a sign, and digits, of which
there is one at least. -/
structure Power where
  mark : Char
  sign : Option Sign
  digits : List (Fin 10)
  marked : mark = 'e' ∨ mark = 'E'
  nonempty : digits ≠ []

namespace Power

def chars (power : Power) : List Char :=
  power.mark :: (Sign.chars power.sign ++ power.digits.map digitChar)

def value (power : Power) : Int :=
  signed (Sign.isMinus power.sign) (Text.wholeValue power.digits : Int)

end Power

/-- What stands behind the digits; there may be no exponent. -/
def powerChars (power : Option Power) : List Char := power.elim [] Power.chars

/-- The exponent that is written; without one it is zero. -/
def powerValue (power : Option Power) : Int := power.elim 0 Power.value

theorem signed?_eq (text : List Char) :
    Text.signed? text = (Text.whole? (Text.splitSign text).2).map fun value : Nat =>
      signed (Text.splitSign text).1 (value : Int) := by
  change Option.map _ (Text.whole? (Text.splitSign text).2 >>= fun value => some (value : Int)) = _
  cases Text.whole? (Text.splitSign text).2 <;> rfl

theorem signed?_digits (sign : Option Sign) {digits : List (Fin 10)} (nonempty : digits ≠ []) :
    Text.signed? (Sign.chars sign ++ digits.map digitChar) =
      some (signed (Sign.isMinus sign) (Text.wholeValue digits : Int)) := by
  rw [signed?_eq, splitSign_chars sign (head?_digits digits), Text.whole?_digits nonempty]
  rfl

theorem isExponentMark_iff {c : Char} : isExponentMark c = true ↔ c = 'e' ∨ c = 'E' := by
  simp [isExponentMark]

private theorem exponentPart?_powerChars (power : Option Power) :
    exponentPart? (powerChars power) =
      if inRange (powerValue power) then some (powerValue power) else none := by
  cases power with
  | none =>
      rfl
  | some power =>
      have value : Text.signed? (Sign.chars power.sign ++ power.digits.map digitChar) =
          some power.value :=
        signed?_digits power.sign power.nonempty
      change (Text.signed? _).filter _ = _
      rw [value, Option.filter_some]
      rfl

private theorem exists_power {tail : List Char} {exponent : Int}
    (marked : ∀ c ∈ tail.head?, isExponentMark c = true)
    (read : exponentPart? tail = some exponent) : ∃ power, tail = powerChars power := by
  cases tail with
  | nil =>
      exact ⟨none, rfl⟩
  | cons mark literal =>
      obtain ⟨sign, shown⟩ := exists_sign literal
      change (Text.signed? literal).filter _ = some exponent at read
      obtain ⟨value, _⟩ := Option.filter_eq_some_iff.mp read
      rw [signed?_eq, Option.map_eq_some_iff] at value
      obtain ⟨number, whole, _⟩ := value
      obtain ⟨digits, nonempty, spelled, _⟩ := Text.whole?_eq_some.mp whole
      refine ⟨some ⟨mark, sign, digits, isExponentMark_iff.mp (marked mark rfl), nonempty⟩, ?_⟩
      change mark :: literal = mark :: (Sign.chars sign ++ digits.map digitChar)
      rw [← spelled, ← shown]

/-! ## Texts -/

/-- The parts of a decimal text. There is a digit at least, in front of the point or
behind it. -/
structure Spelling where
  sign : Option Sign
  whole : List (Fin 10)
  /-- The digits behind the point, if there is a point. -/
  fraction : Option (List (Fin 10))
  power : Option Power
  nonempty : whole ++ fraction.getD [] ≠ []

namespace Spelling

def digits (spelling : Spelling) : List (Fin 10) :=
  spelling.whole ++ spelling.fraction.getD []

def exponent (spelling : Spelling) : Int := powerValue spelling.power

def pointChars (spelling : Spelling) : List Char :=
  spelling.fraction.elim [] fun behind => '.' :: behind.map digitChar

def mantissaChars (spelling : Spelling) : List Char :=
  spelling.whole.map digitChar ++ spelling.pointChars

def chars (spelling : Spelling) : List Char :=
  Sign.chars spelling.sign ++ (spelling.mantissaChars ++ powerChars spelling.power)

def text (spelling : Spelling) : String := String.ofList spelling.chars

/-- The power of ten of the first digit. -/
def place (spelling : Spelling) : Int := spelling.whole.length - 1 + spelling.exponent

/-- The number that is read. -/
def number (spelling : Spelling) : Decimal :=
  ofDigits (Sign.isMinus spelling.sign) spelling.digits spelling.place

end Spelling

/-! ## Reading the parts -/

section Reading

variable (spelling : Spelling)

/-- Neither digits nor the point mark an exponent. -/
theorem mantissaChars_unmarked :
    ∀ c ∈ spelling.mantissaChars, (!isExponentMark c) = true := by
  have plain (digits : List (Fin 10)) : ∀ c ∈ digits.map digitChar, (!isExponentMark c) = true := by
    intro c member
    obtain ⟨digit, _, rfl⟩ := List.mem_map.mp member
    simp [(digitChar_plain digit).2.2.2]
  intro c member
  rcases List.mem_append.mp member with inWhole | inPoint
  · exact plain _ c inWhole
  · unfold Spelling.pointChars at inPoint
    cases fraction : spelling.fraction with
    | none =>
        rw [fraction] at inPoint
        cases inPoint
    | some behind =>
        rw [fraction] at inPoint
        rcases List.mem_cons.mp inPoint with rfl | inFraction
        · rfl
        · exact plain behind c inFraction

/-- The exponent starts at its mark. -/
theorem span_powerChars (power : Option Power) :
    (powerChars power).takeWhile (fun c => !isExponentMark c) = [] ∧
      (powerChars power).dropWhile (fun c => !isExponentMark c) = powerChars power := by
  cases power with
  | none =>
      exact ⟨rfl, rfl⟩
  | some power =>
      have marked : isExponentMark power.mark = true := isExponentMark_iff.mpr power.marked
      simp [powerChars, Power.chars, marked]

private theorem whole_unpointed : ∀ c ∈ spelling.whole.map digitChar, (c != '.') = true := by
  intro c member
  obtain ⟨digit, _, rfl⟩ := List.mem_map.mp member
  simp [(digitChar_plain digit).2.2.1]

private theorem takeWhile_mantissaChars :
    spelling.mantissaChars.takeWhile (· != '.') = spelling.whole.map digitChar := by
  rw [Spelling.mantissaChars, List.takeWhile_append_of_pos (whole_unpointed spelling)]
  cases fraction : spelling.fraction <;> simp [Spelling.pointChars, fraction]

private theorem dropWhile_mantissaChars :
    (spelling.mantissaChars.dropWhile (· != '.')).drop 1 =
      (spelling.fraction.getD []).map digitChar := by
  rw [Spelling.mantissaChars, List.dropWhile_append_of_pos (whole_unpointed spelling)]
  cases fraction : spelling.fraction <;> simp [Spelling.pointChars, fraction]

private theorem head?_mantissaChars (tail : List Char) :
    ∀ c ∈ (spelling.mantissaChars ++ tail).head?, c ≠ '-' ∧ c ≠ '+' := by
  have nonempty := spelling.nonempty
  unfold Spelling.mantissaChars Spelling.pointChars
  intro c first
  cases whole : spelling.whole with
  | cons digit rest =>
      simp only [whole, List.map_cons, List.cons_append, List.head?_cons, Option.mem_some_iff]
        at first
      exact first ▸ ⟨(digitChar_plain digit).1, (digitChar_plain digit).2.1⟩
  | nil =>
      cases fraction : spelling.fraction with
      | none =>
          simp [whole, fraction] at nonempty
      | some behind =>
          simp only [whole, fraction, List.map_nil, List.nil_append, Option.elim_some,
            List.cons_append, List.head?_cons, Option.mem_some_iff] at first
          exact first ▸ by decide

/-- A spelled number is read if the exponent that is written and that of the first
significant digit are in range. -/
theorem parse?_chars :
    parse? spelling.chars =
      if inRange spelling.exponent && inRange spelling.number.exponent then
        some spelling.number
      else
        none := by
  have unmarked := mantissaChars_unmarked spelling
  obtain ⟨noneTaken, noneDropped⟩ := span_powerChars spelling.power
  have digitsRead : (spelling.whole.map digitChar ++
      (spelling.fraction.getD []).map digitChar).mapM Text.digit? = some spelling.digits := by
    rw [Text.mapM_digit?_eq_some, Spelling.digits, List.map_append]
  have nonempty : spelling.digits.isEmpty = false := by
    simpa [Spelling.digits] using spelling.nonempty
  unfold parse?
  rw [Spelling.chars, splitSign_chars spelling.sign (head?_mantissaChars spelling _)]
  simp only [List.takeWhile_append_of_pos unmarked, List.dropWhile_append_of_pos unmarked,
    noneTaken, noneDropped, List.append_nil, takeWhile_mantissaChars, dropWhile_mantissaChars,
    digitsRead, exponentPart?_powerChars, List.length_map]
  change ((if inRange spelling.exponent then some spelling.exponent else none) >>= _) = _
  by_cases bounded : inRange spelling.exponent = true
  · rw [if_pos bounded, bounded, Bool.true_and]
    simp only [bind, Option.bind_some, nonempty, Bool.false_eq_true, if_false]
    rfl
  · rw [if_neg bounded, if_neg (by simp [bounded])]
    rfl

end Reading

/-! ## Every text that is read is spelled -/

/-- Digits with one point at most are those in front of it and those behind it. -/
theorem exists_fraction {mantissa : List Char} {digits : List (Fin 10)}
    (read : (mantissa.takeWhile (· != '.') ++
      (mantissa.dropWhile (· != '.')).drop 1).mapM Text.digit? = some digits) :
    ∃ (whole : List (Fin 10)) (fraction : Option (List (Fin 10))),
      digits = whole ++ fraction.getD [] ∧
        mantissa = whole.map digitChar ++
          fraction.elim [] fun behind => '.' :: behind.map digitChar := by
  obtain ⟨whole, behind, rfl, wholeShown, behindShown⟩ :=
    List.append_eq_map_iff.mp (Text.mapM_digit?_eq_some.mp read)
  have joined := List.takeWhile_append_dropWhile (p := (· != '.')) (l := mantissa)
  rw [← wholeShown] at joined
  cases stopped : mantissa.dropWhile (· != '.') with
  | nil =>
      refine ⟨whole, none, ?_, ?_⟩
      · rw [stopped] at behindShown
        simpa using behindShown
      · rw [← joined, stopped]
        rfl
  | cons point rest =>
      have isPoint := List.head?_dropWhile_not (· != '.') mantissa
      rw [stopped] at isPoint behindShown
      have isPoint : point = '.' := by simpa using isPoint
      refine ⟨whole, some behind, rfl, ?_⟩
      rw [← joined, stopped, isPoint, Option.elim_some, behindShown]
      rfl

theorem exists_spelling {text : List Char} {number : Decimal}
    (read : parse? text = some number) : ∃ spelling : Spelling, spelling.chars = text := by
  obtain ⟨sign, shown⟩ := exists_sign text
  unfold parse? at read
  simp only [bind, Option.bind_eq_some_iff] at read
  obtain ⟨exponent, exponentRead, digits, digitsRead, checked⟩ := read
  obtain ⟨whole, fraction, rfl, mantissaShown⟩ := exists_fraction digitsRead
  have nonempty : whole ++ fraction.getD [] ≠ [] := by
    intro empty
    simp [empty] at checked
  have marked : ∀ c ∈ ((Text.splitSign text).2.dropWhile fun c => !isExponentMark c).head?,
      isExponentMark c = true := by
    intro c first
    have stopped := List.head?_dropWhile_not (fun c => !isExponentMark c) (Text.splitSign text).2
    rw [first] at stopped
    simpa using stopped
  obtain ⟨power, powerShown⟩ := exists_power marked exponentRead
  refine ⟨⟨sign, whole, fraction, power, nonempty⟩, ?_⟩
  change Sign.chars sign ++ ((whole.map digitChar ++
    fraction.elim [] fun behind => '.' :: behind.map digitChar) ++ powerChars power) = text
  rw [← mantissaShown, ← powerShown, List.takeWhile_append_dropWhile, ← shown]

end LedgerWire.Decimal
