import LedgerWire.Bytes
import LedgerWire.Text.Quoted

namespace LedgerWire

/-- Why a text is not a string of hexadecimal digit pairs. -/
inductive HexFault
  | oddLength
  | badDigit (found : Char) (position : Nat)
  deriving DecidableEq, Repr

namespace HexFault

def message : HexFault → String
  | .oddLength => "Odd number of digits"
  | .badDigit found position =>
      "Invalid character " ++ Text.quotedSingle found ++ " at position " ++ toString position

end HexFault

namespace Hex

/-! ## Writing -/

/-- The upper-case digit of a number below sixteen. -/
def digit (value : Nat) : Char :=
  if value < 10 then Char.ofNat (48 + value) else Char.ofNat (55 + value)

/-- Two upper-case digits for each octet. -/
def encode (bytes : Bytes) : String :=
  String.ofList <| bytes.flatMap fun byte =>
    [digit (byte.toNat / 16), digit (byte.toNat % 16)]

/-! ## Reading -/

/-- The value of a digit of either case, given by its ASCII code. -/
def digitValue? (code : UInt8) : Option Nat :=
  let value := code.toNat
  if 48 ≤ value ∧ value ≤ 57 then some (value - 48)
  else if 65 ≤ value ∧ value ≤ 70 then some (value - 55)
  else if 97 ≤ value ∧ value ≤ 102 then some (value - 87)
  else none

/-- Reads digit pairs behind the octets of `done`, which stand in reverse, and
counts in `position` the codes before the first pair. -/
def decodePairs (done : Bytes) (position : Nat) : List UInt8 → Except HexFault Bytes
  | [] => .ok done.reverse
  | [_] => .error .oddLength
  | high :: low :: rest =>
      match digitValue? high, digitValue? low with
      | none, _ => .error (.badDigit (Char.ofNat high.toNat) position)
      | some _, none => .error (.badDigit (Char.ofNat low.toNat) (position + 1))
      | some highValue, some lowValue =>
          decodePairs (UInt8.ofNat (highValue * 16 + lowValue) :: done) (position + 2) rest

/-- Reads the UTF-8 codes of a text as digit pairs of either case. An odd number
of codes is refused before any digit is looked at, and a bad code is reported
as the character of that number. -/
def decode (text : String) : Except HexFault Bytes :=
  let codes := Bytes.ofText text
  if codes.length % 2 = 1 then .error .oddLength else decodePairs [] 0 codes

/-- A text of `count` decimal digits and upper-case letters up to `F`. -/
def isUpper (count : Nat) (text : String) : Bool :=
  let codes := text.toList
  codes.length == count && codes.all fun c => c.isDigit || ('A' ≤ c && c ≤ 'F')

end Hex

end LedgerWire
