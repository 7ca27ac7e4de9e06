import LedgerWire.Decimal.Basic
import LedgerWire.Text.Notation

namespace LedgerWire.Decimal

/-- The character of a digit. -/
def digitChar (digit : Fin 10) : Char := Char.ofNat (48 + digit.val)

/-- The digits and the exponent: exponential notation from `1e+21` up and from
`1e-7` down, positional notation between. -/
def magnitudeText (digits : List (Fin 10)) (exponent : Int) : List Char :=
  if exponent ≤ -7 ∨ 21 ≤ exponent then
    Text.exponential (digits.map digitChar) exponent
  else
    Text.positional (digits.map digitChar) exponent

def toChars (number : Decimal) : List Char :=
  if number.isZero then
    ['0']
  else if number.negative then
    '-' :: magnitudeText number.digits number.exponent
  else
    magnitudeText number.digits number.exponent

def toText (number : Decimal) : String := String.ofList number.toChars

end LedgerWire.Decimal
