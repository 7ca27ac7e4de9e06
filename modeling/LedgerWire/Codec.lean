import LedgerWire.Decimal.Printer
import LedgerWire.Decimal.Quality
import LedgerWire.Ledger.Header
import LedgerWire.Object.Decoding
import LedgerWire.Signing.Claim
import LedgerWire.Signing.Payload

namespace LedgerWire

/-- Why a request to the codec is refused. -/
inductive RequestError
  | codec (fault : Error)
  | claim (fault : RecordFault)

def RequestError.message : RequestError → String
  | .codec fault => fault.message
  | .claim fault => "invalid request: payment channel claim: " ++ fault.message

namespace Codec

/-! ## Hexadecimal texts in, hexadecimal texts out -/

/-- The octets of an input. -/
def octets (text : String) : Except Error Bytes :=
  (Hex.decode text).mapError (.invalidHex (.input text))

variable (context : Context)

def encode (value : Json) : Except Error String :=
  return Hex.encode (← Object.encode context false value)

def decode (text : String) : Except Error Json := do
  Object.decode context (← octets text)

def encodeForSigning (value : Json) : Except Error String :=
  return Hex.encode (← Signing.single context value)

def encodeForMultisigning (value : Json) (signer : String) : Except Error String :=
  return Hex.encode (← Signing.multiple context value signer)

def encodeForSigningClaim (value : Json) : Except RequestError String := do
  let claim ← (Claim.ofJson value).mapError .claim
  let bytes ← claim.bytes.mapError .codec
  return Hex.encode bytes

def encodeQuality (text : String) : Except Error String :=
  return Hex.encode (← Quality.ofText text)

def decodeQuality (text : String) : Except Error String :=
  return (← Quality.toDecimal (← octets text)).toText

def decodeLedgerHeader (text : String) : Except Error LedgerHeader := do
  LedgerHeader.decode (← octets text)

def transactionId (text : String) : Except Error (Hash 32) :=
  return Signing.transactionId (← octets text)

end Codec

end LedgerWire
