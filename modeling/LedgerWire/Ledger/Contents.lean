import LedgerWire.HashTree
import LedgerWire.Ledger.Header
import LedgerWire.Object.Encoding

namespace LedgerWire.Ledger

variable (context : Context)

/-! ## Items of a ledger's trees -/

/-- The index of an item, which stands in the item itself. -/
def indexOf (key : String) (value : Json) : Except LedgerError (Hash 32) :=
  match (value.get? key).bind Json.string? with
  | none => .error (.missingField key)
  | some text => (Hash.ofHex 32 text).mapError .codec

/-- A transaction under its hash: its octets and those of its metadata, each
with the length in front. -/
def transactionItem (value : Json) : Except LedgerError (Hash 32 × TreeItem) := do
  let index ← indexOf "hash" value
  match value.get? "metaData" with
  | none => throw (.missingField "metaData")
  | some metadata =>
      let bytes ← (do
        let transactionBytes ← Object.encode context false value
        let metadataBytes ← Object.encode context false metadata
        return (← Length.frame transactionBytes) ++ (← Length.frame metadataBytes)
          : Except Error Bytes).mapError .codec
      return (index, ⟨.transactionNode, bytes⟩)

/-- An entry of the state under its index. -/
def stateItem (value : Json) : Except LedgerError (Hash 32 × TreeItem) := do
  let index ← indexOf "index" value
  let bytes ← (Object.encode context false value).mapError .codec
  return (index, ⟨.accountStateEntry, bytes⟩)

/-! ## Roots -/

/-- The root of the tree of transactions. -/
def transactionRoot (transactions : List Json) : Except LedgerError (Hash 32) := do
  let items ← transactions.mapM (transactionItem context)
  return (HashTree.ofList items).root sha512Half

/-- The root of the tree of the state's entries. -/
def stateRoot (entries : List Json) : Except LedgerError (Hash 32) := do
  let items ← entries.mapM (stateItem context)
  return (HashTree.ofList items).root sha512Half

end LedgerWire.Ledger
