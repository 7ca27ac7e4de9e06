import LedgerWire.Digest.Sha512
import LedgerWire.Hash

namespace LedgerWire

/-- The uses of the ledger's hash. Each puts its own three letters and a zero
octet before the data, so that equal data of two uses is hashed apart. -/
inductive HashPrefix
  | transactionId
  | transactionNode
  | accountStateEntry
  | innerNode
  | ledgerHeader
  | transactionSig
  | transactionMultiSig
  | validation
  | proposal
  | paymentChannelClaim
  deriving DecidableEq, Repr

namespace HashPrefix

def all : List HashPrefix :=
  [.transactionId, .transactionNode, .accountStateEntry, .innerNode, .ledgerHeader,
    .transactionSig, .transactionMultiSig, .validation, .proposal, .paymentChannelClaim]

def name : HashPrefix → String
  | .transactionId => "transactionID"
  | .transactionNode => "transaction"
  | .accountStateEntry => "accountStateEntry"
  | .innerNode => "innerNode"
  | .ledgerHeader => "ledgerHeader"
  | .transactionSig => "transactionSig"
  | .transactionMultiSig => "transactionMultiSig"
  | .validation => "validation"
  | .proposal => "proposal"
  | .paymentChannelClaim => "paymentChannelClaim"

/-- The letters of a use. -/
def letters : HashPrefix → List Char
  | .transactionId => ['T', 'X', 'N']
  | .transactionNode => ['S', 'N', 'D']
  | .accountStateEntry => ['M', 'L', 'N']
  | .innerNode => ['M', 'I', 'N']
  | .ledgerHeader => ['L', 'W', 'R']
  | .transactionSig => ['S', 'T', 'X']
  | .transactionMultiSig => ['S', 'M', 'T']
  | .validation => ['V', 'A', 'L']
  | .proposal => ['P', 'R', 'P']
  | .paymentChannelClaim => ['C', 'L', 'M']

def bytes (use : HashPrefix) : Bytes :=
  use.letters.map (fun letter => UInt8.ofNat letter.toNat) ++ [0]

def ofName? (name : String) : Option HashPrefix :=
  all.find? fun use => use.name == name

end HashPrefix

/-- A function from octets to hashes of 32 octets. -/
abbrev HashFunction := Bytes → Hash 32

/-- The first half of the SHA-512 digest. -/
def sha512Half : HashFunction := fun message =>
  ⟨Sha512.half message, Sha512.length_half message⟩

/-- The hash of data for one use. -/
def HashPrefix.hash (use : HashPrefix) (data : Bytes) : Hash 32 :=
  sha512Half (use.bytes ++ data)

end LedgerWire
