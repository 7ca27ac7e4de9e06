import LedgerWire.Text.Whole

namespace LedgerWire

/-- A decimal number: a sign, the significant digits without zeros at either
end, and the power of ten of the first digit. Zero has no digits, no sign, and
the exponent zero. -/
structure Decimal where
  negative : Bool
  digits : List (Fin 10)
  exponent : Int
  deriving DecidableEq, Repr

namespace Decimal

def zero : Decimal := ⟨false, [], 0⟩

instance : Inhabited Decimal := ⟨zero⟩

def isZero (number : Decimal) : Bool := number.digits.isEmpty

def isNegative (number : Decimal) : Bool := number.negative && !number.isZero

/-- How many significant digits there are. -/
def precision (number : Decimal) : Nat := number.digits.length

/-! ## Building -/

/-- The digits without the zeros behind them. -/
def trimEnd (digits : List (Fin 10)) : List (Fin 10) :=
  (digits.reverse.dropWhile (· == 0)).reverse

/-- The number with these digits, of which the first stands for the given power
of ten. -/
def ofDigits (negative : Bool) (digits : List (Fin 10)) (exponent : Int) : Decimal :=
  let significant := trimEnd (digits.dropWhile (· == 0))
  if significant.isEmpty then
    zero
  else
    ⟨negative, significant, exponent - (digits.takeWhile (· == 0)).length⟩

/-- A whole number times a power of ten. -/
def ofParts (negative : Bool) (mantissa : Nat) (exponent : Int) : Decimal :=
  let digits := (Radix.digits 10 mantissa).map (Fin.ofNat 10)
  ofDigits negative digits (digits.length - 1 + exponent)

/-! ## Exponents -/

/-- The exponents that a decimal may have, those of signed 64-bit integers. -/
def inRange (exponent : Int) : Bool :=
  -2 ^ 63 ≤ exponent && exponent < 2 ^ 63

/-- The number as a whole number of 16 digits times a power of ten. There is
none for a number with more digits, or if the power is out of range. -/
def mantissa16? (number : Decimal) : Option (Nat × Int) :=
  let power := number.exponent - 15
  if number.precision ≤ 16 ∧ inRange power then
    let padded := number.digits ++ List.replicate (16 - number.precision) 0
    some (Radix.value 10 (padded.map Fin.val), power)
  else
    none

end Decimal

end LedgerWire
