import LedgerWire.Address.Extended
import LedgerWire.Registry.Bundled

namespace LedgerWire

/-- What encoding and decoding rest on: the fields and their codes, and the
writing of addresses. -/
structure Context where
  registry : Registry
  addresses : CheckedText

namespace Context

/-- The ledger's own fields and writing of addresses. -/
def standard : Context := ⟨Registry.bundled, CheckedText.base58⟩

instance : Inhabited Context := ⟨standard⟩

end Context

end LedgerWire
