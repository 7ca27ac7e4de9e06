import LedgerWire.Error
import LedgerWire.Registry.Field

namespace LedgerWire

/-! ## Definitions documents -/

/-- A field as a definitions document declares it. -/
structure FieldEntry where
  name : String
  nth : Int
  lengthPrefixed : Bool
  serialized : Bool
  signing : Bool
  typeName : String
  deriving DecidableEq, Repr

/-- The contents of a definitions document. Names do not repeat within a table. -/
structure Definitions where
  types : List (String × Int)
  ledgerEntryTypes : List (String × Int)
  fields : List FieldEntry
  transactionResults : List (String × Int)
  transactionTypes : List (String × Int)
  deriving DecidableEq, Repr

/-- Why a definitions document is refused. -/
inductive DefinitionsError
  | malformed
  | unknownType (field typeName : String)
  | duplicateName (name : String)
  | duplicateOrdinal (first second : String) (ordinal : Nat)
  deriving DecidableEq, Repr

def DefinitionsError.message : DefinitionsError → String
  | .malformed => "malformed definitions document"
  | .unknownType field typeName =>
      "field " ++ field ++ " references unknown type " ++ typeName
  | .duplicateName name => "duplicate field name: " ++ name
  | .duplicateOrdinal first second ordinal =>
      "fields " ++ first ++ " and " ++ second ++ " share ordinal " ++
        Error.prefixedHex 8 ordinal

/-! ## Registries -/

/-- The fields in the order of their document, the type codes, and the tables. -/
structure Registry where
  fields : List Field
  types : List (String × Int)
  transactionTypes : EnumTable
  ledgerEntryTypes : EnumTable
  transactionResults : EnumTable

namespace Registry

def field? (registry : Registry) (name : String) : Option Field :=
  registry.fields.find? fun field => field.name == name

/-- The serialized field with these codes. -/
def fieldAt? (registry : Registry) (typeCode nth : Nat) : Option Field :=
  registry.fields.find? fun field =>
    field.serialized && field.typeCode == typeCode && field.nth == nth

def typeCode? (registry : Registry) (typeName : String) : Option Int :=
  registry.types.lookup typeName

def table (registry : Registry) : EnumKind → EnumTable
  | .transactionType => registry.transactionTypes
  | .ledgerEntryType => registry.ledgerEntryTypes
  | .transactionResult => registry.transactionResults

/-! ## Loading -/

/-- A code of a field, if it is neither negative nor past 16 bits. -/
def code? (code : Int) : Option Nat :=
  if 0 ≤ code ∧ code < 2 ^ 16 then some code.toNat else none

/-- The serialized field that an entry with this ordinal would collide with. -/
def holder? (held : List Field) (ordinal : Nat) : Option Field :=
  held.find? fun field => field.serialized && field.ordinal == ordinal

/-- Adds an entry behind the fields held so far. An entry with a code out of
range is a placeholder and is left out. Its type has to be known all the same. -/
def addEntry (types : List (String × Int)) (held : List Field) (entry : FieldEntry) :
    Except DefinitionsError (List Field) :=
  match types.lookup entry.typeName with
  | none => .error (.unknownType entry.name entry.typeName)
  | some typeCode =>
      match code? typeCode, code? entry.nth with
      | some typeCode, some nth =>
          if held.any fun field => field.name == entry.name then
            .error (.duplicateName entry.name)
          else
            let field : Field :=
              { name := entry.name
                typeName := entry.typeName
                typeCode
                nth
                lengthPrefixed := entry.lengthPrefixed
                serialized := entry.serialized
                signing := entry.signing }
            match entry.serialized, holder? held field.ordinal with
            | true, some first =>
                .error (.duplicateOrdinal first.name entry.name field.ordinal)
            | _, _ => .ok (held ++ [field])
      | _, _ => .ok held

/-- The registry of a document, or the first fault of its fields. -/
def ofDefinitions (document : Definitions) : Except DefinitionsError Registry := do
  let fields ← document.fields.foldlM (addEntry document.types) []
  return {
    fields
    types := document.types
    transactionTypes := ⟨.transactionType, document.transactionTypes⟩
    ledgerEntryTypes := ⟨.ledgerEntryType, document.ledgerEntryTypes⟩
    transactionResults := ⟨.transactionResult, document.transactionResults⟩ }

end Registry

end LedgerWire
