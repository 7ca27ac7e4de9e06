import LedgerWire.Digest.HashPrefix
import LedgerWire.Object.Encoding

namespace LedgerWire.Signing

variable (context : Context)

/-! ## What is signed -/

/-- The octets that a single signer signs: the fields that a signature covers. -/
def single (transaction : Json) : Except Error Bytes := do
  let fields ← Object.encode context true transaction
  return HashPrefix.transactionSig.bytes ++ fields

/-- The octets that one of several signers signs: the same fields with the
signer's account behind them. The key of a single signer has to be empty. -/
def multiple (transaction : Json) (signer : String) : Except Error Bytes := do
  if (transaction.get? "SigningPubKey").bind Json.string? = some "" then
    let account ← Account.parse context.addresses signer
    let fields ← Object.encode context true transaction
    return HashPrefix.transactionMultiSig.bytes ++ fields ++ account.bytes
  else
    throw .signingPubKeyNotEmpty

/-- The identifier of an encoded transaction. -/
def transactionId (bytes : Bytes) : Hash 32 := HashPrefix.transactionId.hash bytes

end LedgerWire.Signing
