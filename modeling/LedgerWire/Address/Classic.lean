import LedgerWire.Address.Fault
import LedgerWire.Hash

namespace LedgerWire

/-! ## Classic addresses

The payload of a classic address is a zero version octet and the account. -/

namespace Address

variable (writing : CheckedText)

/-- The checked payload of an address text. -/
def payload (text : String) : Except AddressFault Bytes :=
  (writing.decode text).mapError .base58

def encodeClassic (account : AccountId) : String :=
  writing.encode (0 :: account.bytes)

def decodeClassic (text : String) : Except AddressFault AccountId := do
  let octets ← payload writing text
  match octets with
  | version :: rest =>
      match Hash.ofBytes? 20 rest with
      | none => throw (.payloadLength 21 octets.length)
      | some account => if version = 0 then return account else throw (.version [version])
  | [] => throw (.payloadLength 21 0)

end Address

end LedgerWire
