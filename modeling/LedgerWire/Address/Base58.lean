import LedgerWire.Bytes
import LedgerWire.Radix
import LedgerWire.Digest.Sha256
import LedgerWire.Text.Quoted

namespace LedgerWire

/-- Why a text is not octets with their checksum. -/
inductive Base58Fault
  | nonAscii (position : Nat)
  | badDigit (found : Char) (position : Nat)
  | tooShort
  | checksum (computed found : Bytes)
  deriving DecidableEq, Repr

namespace Base58Fault

/-- Octets as decimal numbers in brackets. -/
def listed (bytes : Bytes) : String :=
  "[" ++ String.intercalate ", " (bytes.map fun byte => toString byte.toNat) ++ "]"

def message : Base58Fault → String
  | .nonAscii position =>
      "provided string contained non-ascii character starting at byte " ++ toString position
  | .badDigit found position =>
      "provided string contained invalid character " ++ Text.quotedSingle found ++
        " at byte " ++ toString position
  | .tooShort => "provided string is too small to contain a checksum"
  | .checksum computed found =>
      "invalid checksum, calculated checksum: '" ++ listed computed ++
        "', expected checksum: " ++ listed found

end Base58Fault

namespace Base58

/-! ## Digits -/

/-- The digits in ascending order, as the ledger's addresses use them. -/
def alphabet : List Char :=
  "rpshnaf39wBUDNEGHJKLM4PQRST7VWXYZ2bcdeCg65jkm8oFqi1tuvAxyz".toList

/-- The digit of a number below 58. -/
def digit (value : Nat) : Char := alphabet.getD value 'r'

/-- The number of a digit. -/
def digitValue? (c : Char) : Option Nat := alphabet.idxOf? c

/-! ## Octets as digits -/

/-- The digits of the octets as one number, with a zero digit for each leading
zero octet. -/
def encode (bytes : Bytes) : String :=
  let zeros := bytes.takeWhile (· == 0)
  let number := Radix.value 256 (bytes.map UInt8.toNat)
  String.ofList (zeros.map (fun _ => digit 0) ++ (Radix.digits 58 number).map digit)

/-- The numbers of the digits; the first that is none is reported with the
number of octets before it. -/
def readDigits (done : List Nat) (position : Nat) : List Char → Except Base58Fault (List Nat)
  | [] => .ok done.reverse
  | c :: rest =>
      if 0x80 ≤ c.toNat then
        .error (.nonAscii position)
      else
        match digitValue? c with
        | none => .error (.badDigit c position)
        | some value => readDigits (value :: done) (position + 1) rest

/-- The octets whose digits a text shows. -/
def decode (text : String) : Except Base58Fault Bytes := do
  let values ← readDigits [] 0 text.toList
  let zeros := values.takeWhile (· == 0)
  let number := Radix.value 58 values
  return zeros.map (fun _ => 0) ++ (Radix.digits 256 number).map UInt8.ofNat

/-! ## Checksums -/

/-- The first four octets of the double digest. -/
def checksum (payload : Bytes) : Bytes :=
  (Sha256.digest (Sha256.digest payload)).take 4

/-- Writes a payload and its checksum. -/
def encodeChecked (payload : Bytes) : String :=
  encode (payload ++ checksum payload)

/-- Reads a payload that its checksum follows. -/
def decodeChecked (text : String) : Except Base58Fault Bytes := do
  let bytes ← decode text
  if bytes.length < 4 then
    throw .tooShort
  let payload := bytes.take (bytes.length - 4)
  let found := bytes.drop (bytes.length - 4)
  if checksum payload = found then
    return payload
  else
    throw (.checksum (checksum payload) found)

end Base58

/-- A way of writing octets as checked text. The address layer rests on this
alone, so that another writing can stand in. -/
structure CheckedText where
  encode : Bytes → String
  decode : String → Except Base58Fault Bytes

/-- The ledger's own writing of addresses. -/
def CheckedText.base58 : CheckedText :=
  ⟨Base58.encodeChecked, Base58.decodeChecked⟩

end LedgerWire
