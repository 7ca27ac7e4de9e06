import LedgerWire.Command.Usage

namespace LedgerWire.Command

/-- An option of the command line. -/
inductive OptionName
  | verbose
  | format
  | config
  | definitions
  | lowercase
  | compact
  | file
  | signer
  | help
  | version
  deriving DecidableEq, Repr

namespace OptionName

/-- The name behind two dashes. -/
def long : OptionName → String
  | .verbose => "verbose"
  | .format => "format"
  | .config => "config"
  | .definitions => "definitions"
  | .lowercase => "lowercase"
  | .compact => "compact"
  | .file => "file"
  | .signer => "signer"
  | .help => "help"
  | .version => "version"

/-- The letter behind one dash, where there is one. -/
def short? : OptionName → Option Char
  | .verbose => some 'v'
  | .file => some 'f'
  | .help => some 'h'
  | .version => some 'V'
  | _ => none

def takesValue : OptionName → Bool
  | .format | .config | .definitions | .file | .signer => true
  | _ => false

/-- A format has to be one of two words, and a path must not be empty. -/
def accepts : OptionName → String → Bool
  | .format, value => value == "text" || value == "json"
  | .config, value => !value.isEmpty
  | .definitions, value => !value.isEmpty
  | .file, value => !value.isEmpty
  | _, _ => true

/-- The options that may stand before and behind the name of a subcommand. -/
def common : List OptionName :=
  [verbose, format, config, definitions, lowercase, compact, help]

end OptionName

/-- What one part of the command line takes: the part in front of the name of a
subcommand, or the part behind it. -/
structure Level where
  options : List OptionName
  positionals : Nat
  subcommands : List String

/-- What has been found in one part of the command line. An option whose value
may still follow, or whose value has not been looked at, is pending. -/
structure Findings where
  options : List (OptionName × String)
  positionals : List String
  pending : Option (OptionName × Option String)
  deriving DecidableEq, Repr

namespace Findings

def empty : Findings := ⟨[], [], none⟩

def has (found : Findings) (name : OptionName) : Bool :=
  (found.options.lookup name).isSome

/-- Whether the next argument is the value of an option. -/
def awaits (found : Findings) : Bool :=
  match found.pending with
  | some (_, none) => true
  | _ => false

/-- Takes an option with its value, once. -/
def keep (found : Findings) (name : OptionName) (value : String) :
    Except Usage Findings :=
  if found.has name then
    .error .argumentConflict
  else if name.accepts value then
    .ok { found with options := found.options ++ [(name, value)] }
  else
    .error .invalidValue

/-- Looks at the pending option. -/
def settle (found : Findings) : Except Usage Findings :=
  match found.pending with
  | none => .ok found
  | some (_, none) => .error .invalidValue
  | some (name, some value) => { found with pending := none }.keep name value

/-- Takes an option without a value. -/
def keepFlag (found : Findings) (name : OptionName) : Except Usage Findings := do
  let settled ← found.settle
  match name with
  | .help => throw .help
  | .version => throw .version
  | _ => settled.keep name ""

/-- Takes an option that needs a value, which is attached or the next argument. -/
def keepOption (found : Findings) (name : OptionName) (attached : Option String) :
    Except Usage Findings := do
  let settled ← found.settle
  match attached with
  | some value => settled.keep name value
  | none => return { settled with pending := some (name, none) }

/-- Takes an argument that is no option. -/
def keepPositional (found : Findings) (value : String) : Except Usage Findings := do
  let settled ← found.settle
  return { settled with positionals := settled.positionals ++ [value] }

end Findings

namespace Level

variable (level : Level)

def long? (name : String) : Option OptionName :=
  level.options.find? fun option => option.long == name

def short? (letter : Char) : Option OptionName :=
  level.options.find? fun option => option.short? == some letter

/-! ## Arguments with dashes -/

/-- Takes `--name` or `--name=value`, given without its dashes. -/
def takeLong (found : Findings) (text : List Char) : Except Usage Findings :=
  let name := String.ofList (text.takeWhile (· != '='))
  let attached :=
    match text.dropWhile (· != '=') with
    | [] => none
    | _ :: value => some (String.ofList value)
  match level.long? name with
  | none => .error .unknownArgument
  | some option =>
      if option.takesValue then
        found.keepOption option attached
      else if attached.isSome then
        .error .tooManyValues
      else
        found.keepFlag option

/-- Takes the letters behind one dash. What follows a letter that needs a value
is the value. -/
def takeShort (found : Findings) : List Char → Except Usage Findings
  | [] => .ok found
  | letter :: rest =>
      match level.short? letter with
      | none => .error .unknownArgument
      | some option =>
          if option.takesValue then
            let attached :=
              match rest with
              | [] => none
              | '=' :: value => some (String.ofList value)
              | value => some (String.ofList value)
            found.keepOption option attached
          else do
            takeShort (← found.keepFlag option) rest

/-! ## Arguments without dashes -/

/-- Takes an argument by its position, if there is one left to take. -/
def takePositional (found : Findings) (trailing : Bool) (argument : String) :
    Except Usage Findings :=
  if found.positionals.length < level.positionals then
    found.keepPositional argument
  else if level.subcommands.isEmpty then
    .error .unknownArgument
  else if trailing && level.subcommands.contains argument then
    .error .unknownArgument
  else
    .error .invalidSubcommand

/-! ## A part of the command line -/

/-- Takes arguments up to the name of a subcommand. Gives that name and the
arguments behind it as well. Behind `--` there are neither options nor
subcommands. -/
def scan (found : Findings) (trailing : Bool) :
    List String → Except Usage (Findings × Option (String × List String))
  | [] => .ok (found, none)
  | argument :: rest =>
      if trailing then do
        scan (← level.takePositional found true argument) true rest
      else if !found.awaits && level.subcommands.contains argument then
        .ok (found, some (argument, rest))
      else
        match argument.toList with
        | ['-', '-'] => scan found true rest
        | '-' :: '-' :: text => do scan (← level.takeLong found text) false rest
        | '-' :: letter :: letters => do
            scan (← level.takeShort found (letter :: letters)) false rest
        | _ =>
            match found.pending with
            | some (name, none) =>
                scan { found with pending := some (name, some argument) } false rest
            | _ => do scan (← level.takePositional found false argument) false rest

end Level

end LedgerWire.Command
