import LedgerWire.Cursor
import LedgerWire.Digest.HashPrefix
import LedgerWire.Json.Record

namespace LedgerWire

/-- The header of a ledger. Two of its parts may be unknown. -/
structure LedgerHeader where
  index : UInt32
  totalCoins : UInt64
  parentHash : Hash 32
  transactionHash : Hash 32
  accountHash : Hash 32
  parentCloseTime : Option UInt32
  closeTime : UInt32
  closeTimeResolution : UInt8
  closeFlags : Option UInt8
  deriving DecidableEq, Repr

/-- Why a ledger or its header has no hash. -/
inductive LedgerError
  | missingField (name : String)
  | codec (fault : Error)

def LedgerError.message : LedgerError → String
  | .missingField name => "missing required field: " ++ name
  | .codec fault => fault.message

namespace LedgerHeader

/-! ## Octets -/

/-- The octets that are hashed. Every part has to be known. -/
def bytes (header : LedgerHeader) : Except LedgerError Bytes :=
  match header.parentCloseTime, header.closeFlags with
  | none, _ => .error (.missingField "parent_close_time")
  | some _, none => .error (.missingField "close_flags")
  | some parentCloseTime, some closeFlags =>
      .ok <|
        Bytes.ofNat 4 header.index.toNat ++ Bytes.ofNat 8 header.totalCoins.toNat ++
          header.parentHash.bytes ++ header.transactionHash.bytes ++
          header.accountHash.bytes ++ Bytes.ofNat 4 parentCloseTime.toNat ++
          Bytes.ofNat 4 header.closeTime.toNat ++
          [header.closeTimeResolution, closeFlags]

/-- Reads a header. -/
def read : Read LedgerHeader := do
  let index ← Read.number 4
  let totalCoins ← Read.number 8
  let parentHash ← Read.hash 32
  let transactionHash ← Read.hash 32
  let accountHash ← Read.hash 32
  let parentCloseTime ← Read.number 4
  let closeTime ← Read.number 4
  let closeTimeResolution ← Read.byte
  let closeFlags ← Read.byte
  return {
    index := UInt32.ofNat index
    totalCoins := UInt64.ofNat totalCoins
    parentHash
    transactionHash
    accountHash
    parentCloseTime := some (UInt32.ofNat parentCloseTime)
    closeTime := UInt32.ofNat closeTime
    closeTimeResolution := UInt8.ofNat closeTimeResolution
    closeFlags := some (UInt8.ofNat closeFlags) }

/-- The header in front of the octets; what follows it is not looked at. -/
def decode (bytes : Bytes) : Except Error LedgerHeader := Read.ofBytes read bytes

/-- The hash of a ledger. -/
def hash (header : LedgerHeader) : Except LedgerError (Hash 32) :=
  return HashPrefix.ledgerHeader.hash (← header.bytes)

/-! ## Documents -/

def unsigned8 (value : Json) : Except RecordFault UInt8 :=
  return UInt8.ofNat (← Record.unsigned (2 ^ 8) value)

def unsigned32 (value : Json) : Except RecordFault UInt32 :=
  return UInt32.ofNat (← Record.unsigned (2 ^ 32) value)

def unsigned64 (value : Json) : Except RecordFault UInt64 :=
  return UInt64.ofNat (← Record.unsigned (2 ^ 64) value)

/-- Reads an object. Faults of its parts count in ascending order of the names,
and missing parts after them. -/
def ofEntries (entries : List (String × Json)) : Except RecordFault LedgerHeader := do
  let accountHash ← Record.part? entries "account_hash" (Record.hash 32)
  let closeFlags ← Record.part? entries "close_flags" (Record.optional unsigned8)
  let closeTime ← Record.part? entries "close_time" unsigned32
  let closeTimeResolution ← Record.part? entries "close_time_resolution" unsigned8
  let index ← Record.part? entries "ledger_index" unsigned32
  let parentCloseTime ←
    Record.part? entries "parent_close_time" (Record.optional unsigned32)
  let parentHash ← Record.part? entries "parent_hash" (Record.hash 32)
  let totalCoins ← Record.part? entries "total_coins" unsigned64
  let transactionHash ← Record.part? entries "transaction_hash" (Record.hash 32)
  let index ← Record.required "ledger_index" index
  let totalCoins ← Record.required "total_coins" totalCoins
  let parentHash ← Record.required "parent_hash" parentHash
  let transactionHash ← Record.required "transaction_hash" transactionHash
  let accountHash ← Record.required "account_hash" accountHash
  let closeTime ← Record.required "close_time" closeTime
  let closeTimeResolution ← Record.required "close_time_resolution" closeTimeResolution
  return {
    index, totalCoins, parentHash, transactionHash, accountHash
    parentCloseTime := parentCloseTime.join
    closeTime, closeTimeResolution
    closeFlags := closeFlags.join }

def ofItems (items : List Json) : Except RecordFault LedgerHeader := do
  let expected := "struct LedgerHeader with 9 elements"
  let index ← Record.partAt items 0 expected unsigned32
  let totalCoins ← Record.partAt items 1 expected unsigned64
  let parentHash ← Record.partAt items 2 expected (Record.hash 32)
  let transactionHash ← Record.partAt items 3 expected (Record.hash 32)
  let accountHash ← Record.partAt items 4 expected (Record.hash 32)
  let parentCloseTime ← Record.partAt? items 5 (Record.optional unsigned32)
  let closeTime ← Record.partAt items 6 expected unsigned32
  let closeTimeResolution ← Record.partAt items 7 expected unsigned8
  let closeFlags ← Record.partAt? items 8 (Record.optional unsigned8)
  Record.noMore items 9
  return {
    index, totalCoins, parentHash, transactionHash, accountHash
    parentCloseTime, closeTime, closeTimeResolution, closeFlags }

def ofJson : Json → Except RecordFault LedgerHeader
  | .object entries => ofEntries entries
  | .array items => ofItems items
  | found => .error (.wrongType found "struct LedgerHeader")

/-- The header as an object in the order of its parts. Parts that are unknown
are left out. -/
def toJson (header : LedgerHeader) : Json :=
  let known (name : String) (value : Option Nat) : List (String × Json) :=
    value.toList.map fun value => (name, Json.ofNat value)
  .object <|
    [("ledger_index", Json.ofNat header.index.toNat),
      ("total_coins", .string (toString header.totalCoins.toNat)),
      ("parent_hash", .string header.parentHash.toHex),
      ("transaction_hash", .string header.transactionHash.toHex),
      ("account_hash", .string header.accountHash.toHex)] ++
    known "parent_close_time" (header.parentCloseTime.map UInt32.toNat) ++
    [("close_time", Json.ofNat header.closeTime.toNat),
      ("close_time_resolution", Json.ofNat header.closeTimeResolution.toNat)] ++
    known "close_flags" (header.closeFlags.map UInt8.toNat)

end LedgerHeader

end LedgerWire
