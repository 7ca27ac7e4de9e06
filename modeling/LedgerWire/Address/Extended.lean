import LedgerWire.Address.Classic

namespace LedgerWire

/-- An account with an optional destination tag, on the main or the test network. -/
structure ExtendedAddress where
  account : AccountId
  tag : Option UInt32
  test : Bool
  deriving DecidableEq, Repr

namespace ExtendedAddress

/-! ## Payloads

Two octets name the network. The account follows, then a flag that says whether
there is a tag, the tag's four octets in ascending significance, and four zero
octets that would hold the upper half of a longer tag. -/

def networkBytes (test : Bool) : Bytes :=
  if test then [0x04, 0x93] else [0x05, 0x44]

def tagBytes : Option UInt32 → Bytes
  | none => [0, 0, 0, 0, 0]
  | some tag => 1 :: Bytes.ofNatLittle 4 tag.toNat

def payload (address : ExtendedAddress) : Bytes :=
  networkBytes address.test ++ address.account.bytes ++ tagBytes address.tag ++ [0, 0, 0, 0]

def readNetwork (octets : Bytes) : Except AddressFault Bool :=
  if octets = networkBytes false then .ok false
  else if octets = networkBytes true then .ok true
  else .error (.version octets)

/-- Reads the flag and the tag behind it. -/
def readTag (flag : UInt8) (octets : Bytes) : Except AddressFault (Option UInt32) :=
  if flag = 0 then
    if octets.all (· == 0) then .ok none else .error .strayTagBytes
  else if flag = 1 then
    .ok (some (UInt32.ofNat (Bytes.toNatLittle octets)))
  else
    .error (.tagFlag flag)

def ofPayload (octets : Bytes) : Except AddressFault ExtendedAddress :=
  if octets.length = 31 then do
    let test ← readNetwork (octets.take 2)
    if (octets.drop 27).any (· != 0) then
      throw .wideTag
    let tag ← readTag (octets.getD 22 0) ((octets.drop 23).take 4)
    match Hash.ofBytes? 20 ((octets.drop 2).take 20) with
    | some account => return ⟨account, tag, test⟩
    | none => throw (.payloadLength 31 octets.length)
  else
    .error (.payloadLength 31 octets.length)

end ExtendedAddress

namespace Address

/-! ## Texts -/

variable (writing : CheckedText)

def encodeExtended (address : ExtendedAddress) : String :=
  writing.encode address.payload

def decodeExtended (text : String) : Except AddressFault ExtendedAddress := do
  ExtendedAddress.ofPayload (← payload writing text)

/-- The extended address that a text writes, if it is one. -/
def extended? (text : String) : Option ExtendedAddress :=
  (decodeExtended writing text).toOption

end Address

end LedgerWire
