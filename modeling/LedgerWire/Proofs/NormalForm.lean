import LedgerWire.Proofs.HexDigits
import LedgerWire.Proofs.Parts
import LedgerWire.Proofs.WholeNumbers

/-!
# The normal form of a document

The normal form keeps what is written and nothing else, each value in the one
spelling that decoding gives. It is told from the document alone, without
writing octets.
-/

namespace LedgerWire

/-- The text with zeros in front of it, at least `width` characters long. -/
def Text.padded (width : Nat) (text : String) : String :=
  String.ofList (List.replicate (width - text.length) '0' ++ text.toList)

namespace NormalForm

/-! ## Texts and numbers -/

/-- Hexadecimal digits in capitals. -/
def capitals : Json → Json
  | .string text => .string (Text.upper text)
  | value => value

/-- The zero hash of 16 octets has an empty text. -/
def hash (width : Nat) : Json → Json
  | .string text =>
      if width = 16 ∧ text.toList.all (· == '0') then .string "" else .string (Text.upper text)
  | value => value

/-- An integer of up to four octets is a number. -/
def narrow : Json → Json
  | .string text => Json.ofNat ((Text.signed? text.toList).getD 0).toNat
  | value => value

/-- An integer of eight octets has sixteen digits. -/
def wide : Json → Json
  | .string text => .string (Text.padded 16 (Text.upper text))
  | .number (.whole value) => .string (Hex.encode (Bytes.ofNat 8 value))
  | value => value

def vector : Json → Json
  | .array items => .array (items.map capitals)
  | value => value

/-- A code has its registered name. -/
def named (registry : Registry) (table : EnumKind) (value : Json) : Json :=
  match EnumCode.codeOfJson registry table value with
  | .ok code => (((registry.table table).name? code).map Json.string).getD value
  | .error _ => value

/-! ## Accounts, currencies and amounts -/

section Accounts

variable (writing : CheckedText)

def account : Json → Json
  | .string text =>
      match Account.parse writing text with
      | .ok account => Account.toJson writing account
      | .error _ => .string text
  | value => value

def currency : Json → Json
  | .string text =>
      match Currency.parse text with
      | .ok currency => currency.toJson
      | .error _ => .string text
  | value => value

/-- The value of an issued amount as the text of a decimal. -/
def decimalText (text : String) : Json :=
  match Decimal.parse text with
  | .ok number => .string number.toText
  | .error _ => .string text

def issuedValue : Json → Json
  | .string text => decimalText text
  | .number value => decimalText value.toText
  | value => value

def amount : Json → Json
  | .string text => .string (Text.withoutZeros text)
  | .object [("currency", code), ("issuer", issuer), ("value", value)] =>
      .object
        [("currency", currency code), ("issuer", account writing issuer),
          ("value", issuedValue value)]
  | value => value

/-! ## Paths -/

/-- The entry of a hop under a key, if there is one. -/
def hopEntry (entries : List (String × Json)) (key : String) (shown : Json → Json) :
    List (String × Json) :=
  (entries.lookup key).toList.map fun value => (key, shown value)

def hop : Json → Json
  | .object entries =>
      .object <|
        hopEntry entries "account" (account writing) ++ hopEntry entries "currency" currency ++
          hopEntry entries "issuer" (account writing)
  | value => value

def path : Json → Json
  | .array hops => .array (hops.map (hop writing))
  | value => value

/-- A lone empty path is no path. -/
def pathSet : Json → Json
  | .array [.array []] => .array []
  | .array paths => .array (paths.map (path writing))
  | value => value

end Accounts

/-! ## Documents -/

variable (context : Context)

def scalar : ScalarKind → Json → Json
  | .uint8 => narrow
  | .uint16 => narrow
  | .uint32 => narrow
  | .uint64 => wide
  | .hash128 => hash 16
  | .hash160 => hash 20
  | .hash256 => hash 32
  | .amount => amount context.addresses
  | .blob => capitals
  | .account => account context.addresses
  | .pathSet => pathSet context.addresses
  | .vector256 => vector
  | .named table => named context.registry table

/-- Whether the account of the object is written without a value. -/
def omitsAccount : Json → Bool
  | .object entries =>
      Object.changesValidators context.registry (Object.expanded context.addresses entries)
  | _ => false

/-- A field is known by its name, and an account without a value is the zero
account. -/
def entry (omitted : Bool) (field : Field) (shown : Json) : String × Json :=
  (field.name,
    if omitted && field.name == "Account" then
      Account.toJson context.addresses (Hash.zero 20)
    else
      shown)

/-- The normal form of a value whose parts are in normal form. -/
def node (kind : FieldKind) (value : Json) (parts : List (Field × Json)) : Json :=
  match kind with
  | .scalar kind => scalar context kind value
  | .object =>
      Json.ofEntries (parts.map fun (field, shown) =>
        entry context (omitsAccount context value) field shown)
  | .array => .array (parts.map fun (field, shown) => .object [(field.name, shown)])
  | .unsupported => value

/-- The normal form of a value for a field of this kind. -/
def value (kind : FieldKind) (value : Json) : Json :=
  Object.fold context (node context) kind value

/-- The normal form of a document. -/
def document (document : Json) : Json := value context .object document

theorem value_scalar (kind : ScalarKind) (json : Json) :
    value context (.scalar kind) json = scalar context kind json := by
  rw [value, Object.fold_eq, node]

theorem value_object (json : Json) :
    value context .object json =
      Json.ofEntries ((Object.parts context .object json).map fun part =>
        entry context (omitsAccount context json) part.1 (value context part.1.kind part.2)) := by
  rw [value, Object.fold_eq, node, List.map_map]
  rfl

theorem value_array (json : Json) :
    value context .array json =
      .array ((Object.parts context .array json).map fun part =>
        .object [(part.1.name, value context part.1.kind part.2)]) := by
  rw [value, Object.fold_eq, node, List.map_map]
  rfl

end NormalForm

end LedgerWire
