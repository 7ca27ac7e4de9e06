import LedgerWire.Error
import LedgerWire.Text.Whole

namespace LedgerWire.Unsigned

/-! ## Unsigned integers -/

/-- The integer of a text, if it is within the 128 bits that are looked at. -/
def ofText? (text : String) : Option Int :=
  (Text.signed? text.toList).filter fun value => -2 ^ 127 ≤ value && value < 2 ^ 127

/-- An integer of 64 bits, given as a number or as its decimal text. -/
def wideOfJson (typeName : String) : Json → Except Error Nat
  | .number value =>
      match value.toUnsigned?, value.toSigned? with
      | some whole, _ => .ok whole
      | none, some _ => .error (.outOfRange typeName value.toText)
      | none, none => .error (.invalidValue typeName (.notInteger value.toText))
  | .string text =>
      match ofText? text with
      | some value =>
          if 0 ≤ value ∧ value < 2 ^ 64 then
            .ok value.toNat
          else
            .error (.outOfRange typeName text)
      | none => .error (.invalidValue typeName (.notInteger (Text.quoted text)))
  | found => .error (.invalidValue typeName (.expected .numberOrString found))

/-- An integer that `width` octets hold. -/
def ofJson (typeName : String) (width : Nat) (value : Json) : Except Error Nat := do
  let wide ← wideOfJson typeName value
  if wide < 256 ^ width then
    return wide
  else
    throw (.outOfRange typeName (toString wide))

/-! ## Integers written in hexadecimal

An integer of eight octets is written as hexadecimal digits, since a number of
a document may not be exact there. A number is taken all the same. -/

/-- Up to 16 digits of either case. -/
def ofHex (text : String) : Except Error Nat :=
  let codes := Bytes.ofText text
  match codes.mapM Hex.digitValue? with
  | some digits =>
      if digits.isEmpty ∨ 16 < digits.length then
        .error (.invalidValue "UInt64" (.notHexDigits text))
      else
        .ok (Radix.value 16 digits)
  | none => .error (.invalidValue "UInt64" (.notHexDigits text))

def ofHexJson : Json → Except Error Nat
  | .string text => ofHex text
  | .number value => wideOfJson "UInt64" (.number value)
  | found => .error (.invalidValue "UInt64" (.expected .hexStringOrNumber found))

end LedgerWire.Unsigned
