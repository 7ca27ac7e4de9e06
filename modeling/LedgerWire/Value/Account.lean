import LedgerWire.Address.Extended
import LedgerWire.Cursor
import LedgerWire.Value.Shape

namespace LedgerWire.Account

/-! ## Accounts in documents -/

variable (writing : CheckedText)

/-- Reads an account: nothing stands for the zero account, and else 40 upper-case
digits, an extended address without a tag, or a classic address is taken. -/
def parse (text : String) : Except Error AccountId :=
  if text.isEmpty then
    .ok (Hash.zero 20)
  else if Hex.isUpper 40 text then
    Hash.ofHex 20 text
  else
    match Address.extended? writing text with
    | some address =>
        match address.tag with
        | some _ => .error (.unexpectedTag text)
        | none => .ok address.account
    | none => (Address.decodeClassic writing text).mapError .invalidAddress

def ofJson (subject : String) (value : Json) : Except Error AccountId := do
  parse writing (← value.asString subject)

def toJson (account : AccountId) : Json :=
  .string (Address.encodeClassic writing account)

end LedgerWire.Account
