import LedgerWire.Json.Reader
import LedgerWire.Registry.Basic

namespace LedgerWire.Definitions

/-! ## Reading definitions documents

A record is an object with each of its keys once, among others that are passed
over, or an array of just its parts in order. -/

/-- The parts of a record, in the order of its keys. -/
def record? (keys : List String) : Json → Option (List Json)
  | .array items => if items.length = keys.length then some items else none
  | .object entries =>
      keys.mapM fun key =>
        match entries.filter fun entry => entry.1 == key with
        | [(_, value)] => some value
        | _ => none
  | _ => none

def integer? : Json → Option Int
  | .number value => value.toSigned?
  | _ => none

def bool? : Json → Option Bool
  | .bool value => some value
  | _ => none

/-- A table of codes. Of two entries with one name the later counts. -/
def table? : Json → Option (List (String × Int))
  | .object entries => do
      let checked ← entries.mapM fun (name, value) => do
        let code ← integer? value
        return (name, Json.ofInt code)
      match Json.ofEntries checked with
      | .object distinct => distinct.mapM fun (name, value) => do
          let code ← integer? value
          return (name, code)
      | _ => none
  | _ => none

def fieldEntry? : Json → Option FieldEntry
  | .array [.string name, description] => do
      let parts ← record? ["nth", "isVLEncoded", "isSerialized", "isSigningField", "type"]
        description
      match parts with
      | [nth, lengthPrefixed, serialized, signing, .string typeName] =>
          return {
            name
            nth := ← integer? nth
            lengthPrefixed := ← bool? lengthPrefixed
            serialized := ← bool? serialized
            signing := ← bool? signing
            typeName }
      | _ => none
  | _ => none

def fields? : Json → Option (List FieldEntry)
  | .array items => items.mapM fieldEntry?
  | _ => none

/-- The definitions that a document states. Its entries are those of the text, and
`null` stands for what has no meaning, so `null` is taken nowhere that counts. -/
def ofJson? (document : Json) : Option Definitions := do
  let parts ← record?
    ["TYPES", "LEDGER_ENTRY_TYPES", "FIELDS", "TRANSACTION_RESULTS", "TRANSACTION_TYPES"]
    document
  match parts with
  | [types, ledgerEntryTypes, fields, transactionResults, transactionTypes] =>
      return {
        types := ← table? types
        ledgerEntryTypes := ← table? ledgerEntryTypes
        fields := ← fields? fields
        transactionResults := ← table? transactionResults
        transactionTypes := ← table? transactionTypes }
  | _ => none

end LedgerWire.Definitions

namespace LedgerWire.Registry

/-- The registry that a text defines. -/
def ofText (text : String) : Except DefinitionsError Registry :=
  match (Json.parseLoose? text).bind Definitions.ofJson? with
  | none => .error .malformed
  | some document => ofDefinitions document

end LedgerWire.Registry
