import LedgerWire.Decimal.Parser

namespace LedgerWire.IssuedValue

/-! ## Values of issued amounts

A value takes 64 bits: one that is set, one that tells a positive value, eight
for the exponent, and 54 for the mantissa. -/

/-- The word of zero. -/
def zeroWord : UInt64 := 0x8000000000000000

/-- Stands for the exponent zero in a word. -/
def bias : Int := 97

def leastExponent : Int := -96

def greatestExponent : Int := 80

/-- The word of a mantissa of 16 digits and an exponent within the limits. -/
def word (negative : Bool) (mantissa : Nat) (exponent : Int) : UInt64 :=
  let sign := if negative then 0 else 2 ^ 62
  UInt64.ofNat (2 ^ 63 + sign + (exponent + bias).toNat * 2 ^ 54 + mantissa)

/-- The word of a number, if it has at most 16 digits and its exponent fits. -/
def ofDecimal? (number : Decimal) : Option UInt64 :=
  if number.isZero then
    some zeroWord
  else
    match number.mantissa16? with
    | none => none
    | some (mantissa, exponent) =>
        if leastExponent ≤ exponent ∧ exponent ≤ greatestExponent then
          some (word number.isNegative mantissa exponent)
        else
          none

/-- The number of any word; the highest bit does not count. -/
def toDecimal (word : UInt64) : Decimal :=
  let bits := word.toNat
  let exponent : Int := (bits / 2 ^ 54 % 2 ^ 8 : Nat) - bias
  Decimal.ofParts (bits / 2 ^ 62 % 2 == 0) (bits % 2 ^ 54) exponent

def ofText (text : String) : Except Error UInt64 := do
  let number ← Decimal.parse text
  match ofDecimal? number with
  | some word => return word
  | none => throw (.outOfRange "Amount" text)

end LedgerWire.IssuedValue
