import LedgerWire.Address.Base58
import LedgerWire.Hex

namespace LedgerWire

/-- Why a text is not an address. -/
inductive AddressFault
  | base58 (fault : Base58Fault)
  | version (found : Bytes)
  | payloadLength (expected actual : Nat)
  | tagFlag (flag : UInt8)
  | strayTagBytes
  | wideTag
  deriving DecidableEq, Repr

def AddressFault.message : AddressFault → String
  | .base58 fault => "base58 decoding failed: " ++ fault.message
  | .version found =>
      "unexpected version prefix [" ++
        String.intercalate ", " (found.map fun byte => Hex.encode [byte]) ++ "]"
  | .payloadLength expected actual =>
      "decoded payload has " ++ toString actual ++ " bytes, expected " ++ toString expected
  | .tagFlag flag => "invalid X-address tag flag: " ++ toString flag.toNat
  | .strayTagBytes => "X-address without a tag must have zero tag bytes"
  | .wideTag => "64-bit tags are not supported"

end LedgerWire
