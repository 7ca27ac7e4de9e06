import LedgerWire.Value.Account
import LedgerWire.Value.Currency

namespace LedgerWire

/-- One step of a payment path. -/
structure Hop where
  account : Option AccountId
  currency : Option Currency
  issuer : Option AccountId
  deriving DecidableEq, Repr

/-- The steps of a payment in their order. -/
abbrev Path := List Hop

/-- The paths that a payment may take. -/
structure PathSet where
  paths : List Path
  deriving DecidableEq, Repr

namespace Hop

variable (writing : CheckedText)

/-! ## Documents -/

/-- Reads the entries of a hop and passes over entries under other keys. -/
def ofEntries (entries : List (String × Json)) : Except Error Hop := do
  let account ← (entries.lookup "account").mapM (Account.ofJson writing "account")
  let currency ← (entries.lookup "currency").mapM Currency.ofJson
  let issuer ← (entries.lookup "issuer").mapM (Account.ofJson writing "issuer")
  return { account, currency, issuer }

def toJson (hop : Hop) : Json :=
  .object <|
    hop.account.toList.map (fun account => ("account", Account.toJson writing account)) ++
      hop.currency.toList.map (fun currency => ("currency", currency.toJson)) ++
      hop.issuer.toList.map fun issuer => ("issuer", Account.toJson writing issuer)

/-! ## Octets

The first octet has a bit for each part that follows. -/

def accountBit : Nat := 0x01

def currencyBit : Nat := 0x10

def issuerBit : Nat := 0x20

def flags (hop : Hop) : Nat :=
  (if hop.account.isSome then accountBit else 0) +
    (if hop.currency.isSome then currencyBit else 0) +
    (if hop.issuer.isSome then issuerBit else 0)

def bytes (hop : Hop) : Bytes :=
  UInt8.ofNat hop.flags :: (hop.account.elim [] Hash.bytes ++
    hop.currency.elim [] Currency.bytes ++ hop.issuer.elim [] Hash.bytes)

/-- Whether the octet has the bit of a part. -/
def hasBit (flags part : Nat) : Bool := flags / part % 2 == 1

/-- The octets of a hop that could be told from its first one. -/
def isFlags (flags : Nat) : Bool :=
  flags % 16 ≤ accountBit && flags / 64 == 0

def read : Read Hop := do
  let flags ← Read.byte
  if !isFlags flags then
    throw (.invalidPathStep (UInt8.ofNat flags))
  let account ← if hasBit flags accountBit then some <$> Read.hash 20 else pure none
  let currency ← if hasBit flags currencyBit then some <$> Currency.read else pure none
  let issuer ← if hasBit flags issuerBit then some <$> Read.hash 20 else pure none
  return { account, currency, issuer }

end Hop

namespace PathSet

variable (writing : CheckedText)

/-! ## Documents -/

def hopOfJson (value : Json) : Except Error Hop := do
  Hop.ofEntries writing (← value.asObject "PathHop")

def pathOfJson (value : Json) : Except Error Path := do
  (← value.asArray "Path").mapM (hopOfJson writing)

def ofJson (value : Json) : Except Error PathSet := do
  return ⟨← (← value.asArray "PathSet").mapM (pathOfJson writing)⟩

def toJson (set : PathSet) : Json :=
  .array <| set.paths.map fun path => .array (path.map (Hop.toJson writing))

/-! ## Octets

Paths are separated by an octet that is no hop's first one, and the set ends
with another such octet. -/

def separator : UInt8 := 0xFF

def terminator : UInt8 := 0x00

def pathBytes (path : Path) : Bytes := path.flatMap Hop.bytes

/-- The octets of paths with a separator between each two. -/
def separated : List Path → Bytes
  | [] => []
  | [path] => pathBytes path
  | path :: rest => pathBytes path ++ separator :: separated rest

def bytes (set : PathSet) : Bytes := separated set.paths ++ [terminator]

/-- Reads hops up to a separator or the end of the set, which stays unread. A
hop takes an octet at least, so `fuel` has to exceed the octets left by one. -/
def readHops : (fuel : Nat) → Read Path
  | 0 => throw (.unexpectedEnd 1 0)
  | fuel + 1 => do
      let next ← Read.peek
      if next = separator ∨ next = terminator then
        return []
      else
        let hop ← Hop.read
        return hop :: (← readHops fuel)

/-- Reads paths up to the end of the set. -/
def readPaths : (fuel : Nat) → Read (List Path)
  | 0 => throw (.unexpectedEnd 1 0)
  | fuel + 1 => do
      let path ← readHops ((← get).remaining + 1)
      let mark ← Read.byte
      if mark = separator.toNat then
        return path :: (← readPaths fuel)
      else
        return [path]

/-- Reads a set. A lone empty path is the empty set. -/
def read : Read PathSet := do
  let paths ← readPaths ((← get).remaining + 1)
  return ⟨if paths = [[]] then [] else paths⟩

end PathSet

end LedgerWire
