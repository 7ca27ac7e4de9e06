import LedgerWire.Decimal.IssuedValue
import LedgerWire.Decimal.Printer
import LedgerWire.Value.Account
import LedgerWire.Value.Currency

namespace LedgerWire

/-- An amount of the native currency in drops, or of a currency that an account
has issued. -/
inductive Amount
  | native (negative : Bool) (drops : Fin (2 ^ 62))
  | issued (value : UInt64) (currency : Currency) (issuer : AccountId)
  deriving DecidableEq, Repr

namespace Amount

def isNative : Amount → Bool
  | .native _ _ => true
  | .issued _ _ _ => false

/-! ## Reading documents -/

/-- The greatest number of drops that is taken. -/
def greatestDrops : Nat := 100000000000000000

/-- Reads a number of drops in decimal digits. -/
def ofDrops (text : String) : Except Error Amount :=
  match Text.whole? text.toList with
  | none => .error (.invalidAmount (.notDrops text))
  | some drops =>
      if drops ≤ greatestDrops then
        .ok (.native false (Fin.ofNat _ drops))
      else
        .error (.outOfRange "Amount" text)

/-- The word of a value, given as a text or as a number. -/
def valueOfJson : Json → Except Error UInt64
  | .string text => IssuedValue.ofText text
  | .number value => IssuedValue.ofText value.toText
  | found => .error (.invalidAmount (.wrongValue found))

/-- Reads an issued amount, which has just these three entries. -/
def ofEntries (writing : CheckedText) : List (String × Json) → Except Error Amount
  | [("currency", currency), ("issuer", issuer), ("value", value)] => do
      let value ← valueOfJson value
      let currency ← Currency.ofJson currency
      let issuer ← Account.ofJson writing "issuer" issuer
      return .issued value currency issuer
  | entries => .error (.invalidAmount (.wrongKeys (entries.map (·.1))))

def ofJson (writing : CheckedText) : Json → Except Error Amount
  | .string text => ofDrops text
  | .object entries => ofEntries writing entries
  | found => .error (.invalidAmount (.wrongShape found))

/-! ## Showing documents -/

def toJson (writing : CheckedText) : Amount → Json
  | .native negative drops =>
      .string ((if negative then "-" else "") ++ toString drops.val)
  | .issued value currency issuer =>
      .object
        [("currency", currency.toJson),
          ("issuer", Account.toJson writing issuer),
          ("value", .string (IssuedValue.toDecimal value).toText)]

/-! ## Octets

The highest bit of the first octet tells an issued amount, the next one a
positive number. -/

def bytes : Amount → Bytes
  | .native negative drops =>
      Bytes.ofNat 8 ((if negative then 0 else 2 ^ 62) + drops.val)
  | .issued value currency issuer =>
      Bytes.ofNat 8 value.toNat ++ currency.bytes ++ issuer.bytes

def read : Read Amount := do
  let first ← Read.peek
  if first < 0x80 then
    let bits ← Read.number 8
    return .native (bits / 2 ^ 62 % 2 == 0) (Fin.ofNat _ bits)
  else
    let value ← Read.number 8
    let currency ← Currency.read
    let issuer ← Read.hash 20
    return .issued (UInt64.ofNat value) currency issuer

end Amount

end LedgerWire
