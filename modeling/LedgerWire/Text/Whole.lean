import LedgerWire.Radix

namespace LedgerWire.Text

/-! ## Decimal texts of whole numbers -/

/-- Ten digits are not none, whichever zero a library has. -/
instance (priority := 20000) ten_neZero : @NeZero Nat Zero.ofOfNat0 10 :=
  ⟨Nat.succ_ne_zero 9⟩

/-- The value of a decimal digit. -/
def digit? (c : Char) : Option (Fin 10) :=
  if c.isDigit then some (Fin.ofNat 10 (c.toNat - 48)) else none

/-- The number that digits spell. -/
def wholeValue (digits : List (Fin 10)) : Nat :=
  Radix.value 10 (digits.map Fin.val)

/-- The number of a text of digits, at least one. -/
def whole? (text : List Char) : Option Nat := do
  let digits ← text.mapM digit?
  if digits.isEmpty then none else some (wholeValue digits)

/-- Takes a sign off, and tells whether it was a minus. -/
def splitSign : List Char → Bool × List Char
  | '-' :: rest => (true, rest)
  | '+' :: rest => (false, rest)
  | text => (false, text)

/-- The number of a text of digits behind an optional sign. -/
def signed? (text : List Char) : Option Int :=
  let (negative, unsigned) := splitSign text
  (whole? unsigned).map fun value => if negative then -(value : Int) else value

/-- The number of a text of digits behind an optional plus, if 64 bits hold it. -/
def unsigned64? (text : List Char) : Option Nat :=
  let digits :=
    match text with
    | '+' :: rest => rest
    | _ => text
  (whole? digits).filter fun value => value < 2 ^ 64

/-- The signed number of a text, if 64 bits hold it. -/
def signed64? (text : List Char) : Option Int :=
  (signed? text).filter fun value => -2 ^ 63 ≤ value && value < 2 ^ 63

end LedgerWire.Text
