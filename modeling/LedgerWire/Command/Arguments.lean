import LedgerWire.Command.Option

namespace LedgerWire.Command

/-- Where the input of a subcommand comes from. -/
inductive Source
  | inline (text : String)
  | file (path : String)
  | standardInput
  deriving DecidableEq, Repr

/-- A subcommand with its arguments. -/
inductive Action
  | decode (source : Source)
  | encode (source : Source)
  | encodeForSigning (source : Source)
  | encodeForSigningClaim (source : Source)
  | encodeForMultisigning (source : Source) (signer : String)
  | encodeQuality (value : String)
  | decodeQuality (value : String)
  | decodeLedgerData (source : Source)
  | transactionId (source : Source)
  | ledgerHash (source : Source)
  | transactionTreeHash (source : Source)
  | stateHash (source : Source)
  | field (name : String)
  deriving DecidableEq, Repr

/-- The options that all subcommands share. -/
structure Options where
  asJson : Bool
  config : Option String
  definitions : Option String
  lowercase : Bool
  compact : Bool
  deriving DecidableEq, Repr

/-- What the command line asks for. -/
structure Invocation where
  options : Options
  action : Action
  deriving DecidableEq, Repr

/-! ## Subcommands -/

/-- How a subcommand is built from what was found behind its name. -/
inductive Form
  | input (action : Source → Action)
  | signedInput (action : Source → String → Action)
  | argument (action : String → Action)

/-- The subcommands by name. -/
def subcommands : List (String × Form) :=
  [("decode", .input .decode),
    ("encode", .input .encode),
    ("encode-for-signing", .input .encodeForSigning),
    ("encode-for-signing-claim", .input .encodeForSigningClaim),
    ("encode-for-multisigning", .signedInput .encodeForMultisigning),
    ("encode-quality", .argument .encodeQuality),
    ("decode-quality", .argument .decodeQuality),
    ("decode-ledger-data", .input .decodeLedgerData),
    ("tx-id", .input .transactionId),
    ("ledger-hash", .input .ledgerHash),
    ("tx-tree-hash", .input .transactionTreeHash),
    ("state-hash", .input .stateHash),
    ("field", .argument .field)]

namespace Form

/-- What may stand behind the name of a subcommand. -/
def level (form : Form) : Level :=
  let own : List OptionName :=
    match form with
    | .input _ => [.file]
    | .signedInput _ => [.file, .signer]
    | .argument _ => []
  ⟨OptionName.common ++ own, 1, []⟩

/-- The source of an input, of which at most one is given. -/
def source (found : Findings) : Except Usage Source :=
  match found.positionals.head?, found.options.lookup .file with
  | some _, some _ => .error .argumentConflict
  | some text, none => .ok (.inline text)
  | none, some path => .ok (.file path)
  | none, none => .ok .standardInput

def required : Option String → Except Usage String
  | some value => .ok value
  | none => .error .missingRequiredArgument

/-- Builds the subcommand. -/
def action (found : Findings) : Form → Except Usage Action
  | .input action => return action (← source found)
  | .signedInput action => do
      let source ← source found
      let signer ← required (found.options.lookup .signer)
      return action source signer
  | .argument action => return action (← required found.positionals.head?)

end Form

/-! ## The whole command line -/

/-- The part in front of the name of a subcommand. -/
def outerLevel : Level :=
  ⟨OptionName.common ++ [.version], 0, subcommands.map (·.1) ++ ["help"]⟩

/-- Help is asked for no subcommand or for one. -/
def helpUsage : List String → Usage
  | [] => .help
  | [name] => if outerLevel.subcommands.contains name then .help else .invalidSubcommand
  | _ => .invalidSubcommand

/-- The options of both parts; those behind the subcommand's name count. -/
def commonOptions (outer inner : Findings) : Options :=
  let value (name : OptionName) : Option String :=
    (inner.options.lookup name).or (outer.options.lookup name)
  { asJson := value .format == some "json"
    config := value .config
    definitions := value .definitions
    lowercase := (value .lowercase).isSome
    compact := (value .compact).isSome }

/-- Why there is no subcommand. -/
def withoutSubcommand (found : Findings) : Usage :=
  if found.options.isEmpty then .helpWithoutArguments else .missingSubcommand

/-- Reads the arguments of the command line. -/
def parse (arguments : List String) : Except Usage Invocation := do
  let (outer, next) ← outerLevel.scan .empty false arguments
  match next with
  | none => throw (withoutSubcommand (← outer.settle))
  | some (name, rest) =>
      match subcommands.lookup name with
      | none => throw (helpUsage rest)
      | some form =>
          let (inner, _) ← form.level.scan .empty false rest
          let inner ← inner.settle
          let action ← form.action inner
          let outer ← outer.settle
          return ⟨commonOptions outer inner, action⟩

end LedgerWire.Command
