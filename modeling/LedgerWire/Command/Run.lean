import LedgerWire.Codec
import LedgerWire.Command.Arguments
import LedgerWire.Command.Settings
import LedgerWire.Ledger.Contents
import LedgerWire.Registry.Document
import LedgerWire.Text.Blank

namespace LedgerWire.Command

/-- Why a command fails. -/
inductive Failure
  | configUnreadable (path : String)
  | configMalformed (path : String)
  | definitionsUnreadable (path : String)
  | definitionsMalformed (path : String)
  | inputUnreadable (path : String)
  | standardInputUnreadable
  | inputNotJson
  | inputNotArray
  | headerMalformed
  | unknownField (name : String)
  | codec (fault : Error)
  | request (fault : RequestError)
  | ledger (fault : LedgerError)

def Failure.message : Failure → String
  | .configUnreadable path => "reading config " ++ path
  | .configMalformed path => "parsing config " ++ path
  | .definitionsUnreadable path => "reading definitions " ++ path
  | .definitionsMalformed path => "loading definitions " ++ path
  | .inputUnreadable path => "reading " ++ path
  | .standardInputUnreadable => "reading stdin"
  | .inputNotJson => "input is not valid JSON"
  | .inputNotArray => "expected a JSON array"
  | .headerMalformed => "parsing ledger header"
  | .unknownField name => "unknown field: " ++ name
  | .codec fault => fault.message
  | .request fault => fault.message
  | .ledger fault => fault.message

/-- Where a command finds its files and its standard input. A file or an input
that cannot be read as text gives nothing. -/
structure Surroundings (m : Type → Type) where
  file : String → m (Option String)
  standardInput : m (Option String)

variable {m : Type → Type} [Monad m] (surroundings : Surroundings m)

/-! ## Input -/

/-- The text of a file, or the failure to read it. -/
def fileText (failure : Failure) (path : String) : ExceptT Failure m String := do
  match ← surroundings.file path with
  | some text => return text
  | none => throw failure

/-- The settings of the configuration file under the options of the command
line. -/
def settings (options : Options) : ExceptT Failure m Settings := do
  let base ←
    match options.config with
    | none => pure Settings.default
    | some path => do
        match Settings.parse? (← fileText surroundings (.configUnreadable path) path) with
        | some read => pure read
        | none => throw (.configMalformed path)
  return {
    definitions := options.definitions.or base.definitions
    uppercaseHex := base.uppercaseHex && !options.lowercase
    pretty := base.pretty && !options.compact }

def registry : Option String → ExceptT Failure m Registry
  | none => return Registry.bundled
  | some path => do
      match Registry.ofText (← fileText surroundings (.definitionsUnreadable path) path) with
      | .ok registry => return registry
      | .error _ => throw (.definitionsMalformed path)

/-- The input without blanks at its ends. -/
def inputText : Source → ExceptT Failure m String
  | .inline text => return Text.trim text
  | .file path => return Text.trim (← fileText surroundings (.inputUnreadable path) path)
  | .standardInput => do
      match ← surroundings.standardInput with
      | some text => return Text.trim text
      | none => throw .standardInputUnreadable

def inputJson (source : Source) : ExceptT Failure m Json := do
  match Json.parse? (← inputText surroundings source) with
  | some value => return value
  | none => throw .inputNotJson

def inputItems (source : Source) : ExceptT Failure m (List Json) := do
  match ← inputJson surroundings source with
  | .array items => return items
  | _ => throw .inputNotArray

/-! ## Output -/

/-- How results are printed. -/
structure Style where
  asJson : Bool
  uppercaseHex : Bool
  pretty : Bool

namespace Style

variable (style : Style)

def json (value : Json) : String :=
  (if style.pretty then value.pretty else value.render) ++ "\n"

/-- A single text, under a key if documents are asked for. -/
def text (key value : String) : String :=
  if style.asJson then style.json (.object [(key, .string value)]) else value ++ "\n"

def digits (hex : String) : String :=
  if style.uppercaseHex then hex else hex.toLower

def hex (key digits : String) : String := style.text key (style.digits digits)

def yesNo (flag : Bool) : String := if flag then "yes" else "no"

/-- What is known of a field. -/
def field (field : Field) : String :=
  let header := style.digits (Hex.encode field.header)
  if style.asJson then
    style.json <| .object
      [("header", .string header),
        ("is_serialized", .bool field.serialized),
        ("is_signing_field", .bool field.signing),
        ("is_vl_encoded", .bool field.lengthPrefixed),
        ("name", .string field.name),
        ("nth", Json.ofNat field.nth),
        ("ordinal", Json.ofNat field.ordinal),
        ("type", .string field.typeName),
        ("type_code", Json.ofNat field.typeCode)]
  else
    field.name ++ " (" ++ field.typeName ++ ")\n" ++
      "  type code " ++ toString field.typeCode ++ ", nth " ++ toString field.nth ++
      ", ordinal " ++ Error.prefixedHex 8 field.ordinal ++ "\n" ++
      "  header: " ++ (if field.serialized then header else "not serialized") ++ "\n" ++
      "  length-prefixed: " ++ yesNo field.lengthPrefixed ++ ", signing field: " ++
      yesNo field.signing ++ "\n"

end Style

/-! ## Commands -/

def codecResult {α : Type} (result : Except Error α) : ExceptT Failure m α :=
  liftExcept (result.mapError .codec)
where
  liftExcept (result : Except Failure α) : ExceptT Failure m α :=
    match result with
    | .ok value => return value
    | .error failure => throw failure

def ledgerResult {α : Type} (result : Except LedgerError α) : ExceptT Failure m α :=
  match result with
  | .ok value => return value
  | .error fault => throw (.ledger fault)

/-- Carries out one subcommand. Gives what is printed. -/
def perform (context : Context) (style : Style) :
    Action → ExceptT Failure m String
  | .decode source => do
      let text ← inputText surroundings source
      return style.json (← codecResult (Codec.decode context text))
  | .encode source => do
      let value ← inputJson surroundings source
      return style.hex "blob" (← codecResult (Codec.encode context value))
  | .encodeForSigning source => do
      let value ← inputJson surroundings source
      return style.hex "signing_data" (← codecResult (Codec.encodeForSigning context value))
  | .encodeForSigningClaim source => do
      let value ← inputJson surroundings source
      match Codec.encodeForSigningClaim value with
      | .ok digits => return style.hex "signing_data" digits
      | .error fault => throw (.request fault)
  | .encodeForMultisigning source signer => do
      let value ← inputJson surroundings source
      let digits ← codecResult (Codec.encodeForMultisigning context value signer)
      return style.hex "signing_data" digits
  | .encodeQuality value =>
      return style.hex "quality" (← codecResult (Codec.encodeQuality value))
  | .decodeQuality value =>
      return style.text "quality" (← codecResult (Codec.decodeQuality value))
  | .decodeLedgerData source => do
      let text ← inputText surroundings source
      return style.json (← codecResult (Codec.decodeLedgerHeader text)).toJson
  | .transactionId source => do
      let text ← inputText surroundings source
      return style.hex "hash" (← codecResult (Codec.transactionId text)).toHex
  | .ledgerHash source => do
      match LedgerHeader.ofJson (← inputJson surroundings source) with
      | .ok header => return style.hex "ledger_hash" (← ledgerResult header.hash).toHex
      | .error _ => throw .headerMalformed
  | .transactionTreeHash source => do
      let items ← inputItems surroundings source
      let root ← ledgerResult (Ledger.transactionRoot context items)
      return style.hex "transaction_hash" root.toHex
  | .stateHash source => do
      let items ← inputItems surroundings source
      let root ← ledgerResult (Ledger.stateRoot context items)
      return style.hex "account_hash" root.toHex
  | .field name =>
      match context.registry.field? name with
      | some field => return style.field field
      | none => throw (.unknownField name)

/-- Carries out what the command line asks for. Gives what is printed. -/
def run (invocation : Invocation) : m (Except Failure String) := ExceptT.run do
  let settings ← settings surroundings invocation.options
  let registry ← registry surroundings settings.definitions
  let style : Style :=
    ⟨invocation.options.asJson, settings.uppercaseHex, settings.pretty⟩
  perform surroundings ⟨registry, CheckedText.base58⟩ style invocation.action

end LedgerWire.Command
