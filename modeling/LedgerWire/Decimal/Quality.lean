import LedgerWire.Decimal.Parser

namespace LedgerWire.Quality

/-! ## Rates of offers

A rate takes eight octets: one for the exponent and seven for the mantissa. It
stands at the end of the index of a book directory. -/

/-- Stands for the exponent zero in the first octet. -/
def bias : Int := 100

/-- The octets of a number without its sign, if it has at most 16 digits and its
exponent fits. -/
def ofDecimal? (number : Decimal) : Option Bytes :=
  match number.mantissa16? with
  | none => none
  | some (mantissa, exponent) =>
      if 0 ≤ exponent + bias ∧ exponent + bias < 2 ^ 8 then
        some (Bytes.ofNat 8 ((exponent + bias).toNat * 2 ^ 56 + mantissa))
      else
        none

def ofText (text : String) : Except Error Bytes := do
  let number ← Decimal.parse text
  match ofDecimal? number with
  | some bytes => return bytes
  | none => throw (.outOfRange "Quality" text)

/-- The rate that the last eight octets hold. -/
def toDecimal (bytes : Bytes) : Except Error Decimal :=
  if bytes.length < 8 then
    .error (.invalidLength 8 bytes.length)
  else
    let bits := Bytes.toNat (bytes.drop (bytes.length - 8))
    .ok (Decimal.ofParts false (bits % 2 ^ 56) ((bits / 2 ^ 56 : Nat) - bias))

end LedgerWire.Quality
