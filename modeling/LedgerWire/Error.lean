import LedgerWire.Address.Fault
import LedgerWire.Hash
import LedgerWire.Json.Printer
import LedgerWire.Registry.EnumTable

namespace LedgerWire

/-! ## Causes -/

/-- What a value of a document was expected to be. -/
inductive Shape
  | string
  | array
  | object
  | numberOrString
  | hexStringOrNumber

def Shape.phrase : Shape → String
  | .string => "a string"
  | .array => "an array"
  | .object => "an object"
  | .numberOrString => "a number or string"
  | .hexStringOrNumber => "a hex string or number"

/-- Why a value does not fit its type. -/
inductive ValueFault
  | expected (shape : Shape) (found : Json)
  | notInteger (shown : String)
  | notHexDigits (text : String)
  | blobWithoutLength
  | vectorWithoutLength
  | notSingleEntry (found : Json)
  | notObjectField (name : String)

def ValueFault.message : ValueFault → String
  | .expected shape found => "expected " ++ shape.phrase ++ ", got " ++ found.render
  | .notInteger shown => "not an integer: " ++ shown
  | .notHexDigits text => "expected 1-16 hex digits, got " ++ Text.quoted text
  | .blobWithoutLength => "a blob needs a length prefix"
  | .vectorWithoutLength => "a vector needs a length prefix"
  | .notSingleEntry found =>
      "each element must be an object with one key, got " ++ found.render
  | .notObjectField name => name ++ " is not an object field"

/-- Why a text or value is not an amount. -/
inductive AmountFault
  | notDecimal (text : String)
  | notDrops (text : String)
  | notClaimDrops (text : String)
  | wrongShape (found : Json)
  | wrongKeys (keys : List String)
  | wrongValue (found : Json)

def AmountFault.message : AmountFault → String
  | .notDecimal text => "not a decimal number: " ++ Text.quoted text
  | .notDrops text =>
      "native amount must be a whole number of drops: " ++ Text.quoted text
  | .notClaimDrops text =>
      "claim amount must be a whole number of drops: " ++ Text.quoted text
  | .wrongShape found => "expected a drops string or an object, got " ++ found.render
  | .wrongKeys keys =>
      "issued amount needs exactly currency, issuer and value, got " ++ Text.quotedList keys
  | .wrongValue found => "issued value must be a string, got " ++ found.render

/-- Where a text of hexadecimal digits stood. -/
inductive HexPlace
  | hash
  | blob (text : String)
  | input (text : String)

def HexPlace.message (fault : HexFault) : HexPlace → String
  | .hash => fault.message
  | .blob text => Text.quoted text ++ ": " ++ fault.message
  | .input text => fault.message ++ ": " ++ Text.quoted text

/-- A number of a field header that is too small for its extended form. -/
inductive HeaderFault
  | typeCode (code : Nat)
  | fieldCode (nth : Nat)

def HeaderFault.message : HeaderFault → String
  | .typeCode code => "type code " ++ toString code ++ " must not use the extended form"
  | .fieldCode nth => "field code " ++ toString nth ++ " must not use the extended form"

/-! ## Errors -/

/-- The broad class of an error. -/
inductive ErrorClass
  | lookup
  | format
  | semantic
  | range
  deriving DecidableEq, Repr

/-- Why a document cannot be encoded or octets cannot be decoded. -/
inductive Error
  | unknownField (name : String)
  | unknownOrdinal (typeCode nth : Nat)
  | unknownEnumValue (table : EnumKind) (value : String)
  | unsupportedField (name : String)
  | invalidHex (place : HexPlace) (fault : HexFault)
  | invalidLength (expected actual : Nat)
  | unexpectedEnd (needed remaining : Nat)
  | invalidLengthPrefix (first : UInt8)
  | invalidFieldHeader (fault : HeaderFault)
  | nestingTooDeep (limit : Nat)
  | invalidCurrency (code : String)
  | invalidAmount (fault : AmountFault)
  | invalidAddress (fault : AddressFault)
  | invalidValue (subject : String) (fault : ValueFault)
  | tagConflict (field tagField : String)
  | unexpectedTag (subject : String)
  | signingPubKeyNotEmpty
  | invalidPathStep (flags : UInt8)
  | lengthOverflow (length greatest : Nat)
  | outOfRange (typeName value : String)

namespace Error

/-- `0x` and at least `width` lower-case digits. -/
def prefixedHex (width value : Nat) : String :=
  let digits := Nat.toDigits 16 value
  "0x" ++ String.ofList (List.replicate (width - digits.length) '0' ++ digits)

def message : Error → String
  | .unknownField name => "unknown field: " ++ name
  | .unknownOrdinal typeCode nth =>
      "unknown field ordinal: type code " ++ toString typeCode ++ ", nth " ++ toString nth
  | .unknownEnumValue table value => "unknown " ++ table.name ++ " value: " ++ value
  | .unsupportedField name => "field " ++ name ++ " has no serializable type"
  | .invalidHex place fault => "invalid hex string: " ++ place.message fault
  | .invalidLength expected actual =>
      "invalid byte length: expected " ++ toString expected ++ ", got " ++ toString actual
  | .unexpectedEnd needed remaining =>
      "unexpected end of input: needed " ++ toString needed ++ " bytes, " ++
        toString remaining ++ " remaining"
  | .invalidLengthPrefix first =>
      "invalid variable length indicator: " ++ prefixedHex 2 first.toNat
  | .invalidFieldHeader fault => "invalid field header: " ++ fault.message
  | .nestingTooDeep limit =>
      "objects and arrays nested deeper than " ++ toString limit ++ " levels"
  | .invalidCurrency code => "invalid currency: " ++ code
  | .invalidAmount fault => "invalid amount: " ++ fault.message
  | .invalidAddress fault => "invalid address: " ++ fault.message
  | .invalidValue subject fault => "invalid value for " ++ subject ++ ": " ++ fault.message
  | .tagConflict field tagField =>
      "cannot have both an X-address on " ++ field ++ " and an explicit " ++ tagField
  | .unexpectedTag subject => subject ++ " cannot have an associated tag"
  | .signingPubKeyNotEmpty => "SigningPubKey must be an empty string when multisigning"
  | .invalidPathStep flags => "invalid path step flags: " ++ prefixedHex 2 flags.toNat
  | .lengthOverflow length greatest =>
      "length " ++ toString length ++ " exceeds the maximum encodable length " ++
        toString greatest
  | .outOfRange typeName value => "value " ++ value ++ " out of range for " ++ typeName

/-- The class of an error. Unknown names and codes are failed lookups, malformed
octets and values are format errors, contradictions within a well-formed input
are semantic, and numbers past their limits are range errors. -/
def errorClass : Error → ErrorClass
  | .unknownField _ => .lookup
  | .unknownOrdinal _ _ => .lookup
  | .unknownEnumValue _ _ => .lookup
  | .unsupportedField _ => .lookup
  | .tagConflict _ _ => .semantic
  | .unexpectedTag _ => .semantic
  | .signingPubKeyNotEmpty => .semantic
  | .invalidPathStep _ => .semantic
  | .lengthOverflow _ _ => .range
  | .outOfRange _ _ => .range
  | _ => .format

end Error

/-- Reads the digits of a hash, two for each octet. The number of digits is
looked at first, and counted in octets of UTF-8. -/
def Hash.ofHex (width : Nat) (text : String) : Except Error (Hash width) :=
  if text.utf8ByteSize = 2 * width then
    match Hex.decode text with
    | .error fault => .error (.invalidHex .hash fault)
    | .ok bytes =>
        match Hash.ofBytes? width bytes with
        | some hash => .ok hash
        | none => .error (.invalidLength width bytes.length)
  else
    .error (.invalidLength width (text.utf8ByteSize / 2))

/-- The octets as a hash of their width. -/
def Hash.ofBytes (width : Nat) (bytes : Bytes) : Except Error (Hash width) :=
  match Hash.ofBytes? width bytes with
  | some hash => .ok hash
  | none => .error (.invalidLength width bytes.length)

end LedgerWire
