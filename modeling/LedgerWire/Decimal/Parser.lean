import LedgerWire.Decimal.Basic
import LedgerWire.Error
import LedgerWire.Text.Whole

namespace LedgerWire.Decimal

/-! ## Reading decimals

A text has an optional sign, digits with at most one point among them, and an
optional exponent behind `e` or `E`. -/

def isExponentMark (c : Char) : Bool := c == 'e' || c == 'E'

/-- The exponent from its mark on; without a mark it is zero. -/
def exponentPart? : List Char → Option Int
  | [] => some 0
  | _ :: literal => Text.signed64? literal

/-- Reads a number. Its exponent has to be in range, as has the one written. -/
def parse? (text : List Char) : Option Decimal := do
  let (negative, unsigned) := Text.splitSign text
  let mantissa := unsigned.takeWhile fun c => !isExponentMark c
  let exponent ← exponentPart? (unsigned.dropWhile fun c => !isExponentMark c)
  let whole := mantissa.takeWhile (· != '.')
  let fraction := (mantissa.dropWhile (· != '.')).drop 1
  let digits ← (whole ++ fraction).mapM Text.digit?
  if digits.isEmpty then
    none
  else
    let number := ofDigits negative digits (whole.length - 1 + exponent)
    if inRange number.exponent then some number else none

def parse (text : String) : Except Error Decimal :=
  match parse? text.toList with
  | some number => .ok number
  | none => .error (.invalidAmount (.notDecimal text))

end LedgerWire.Decimal
