namespace LedgerWire.Command

/-- What is asked for, or wrong, if the arguments of the command line do not
make a command. -/
inductive Usage
  | help
  | version
  | helpWithoutArguments
  | missingSubcommand
  | invalidSubcommand
  | unknownArgument
  | invalidValue
  | tooManyValues
  | missingRequiredArgument
  | argumentConflict
  deriving DecidableEq, Repr

namespace Usage

def name : Usage → String
  | .help => "DisplayHelp"
  | .version => "DisplayVersion"
  | .helpWithoutArguments => "DisplayHelpOnMissingArgumentOrSubcommand"
  | .missingSubcommand => "MissingSubcommand"
  | .invalidSubcommand => "InvalidSubcommand"
  | .unknownArgument => "UnknownArgument"
  | .invalidValue => "InvalidValue"
  | .tooManyValues => "TooManyValues"
  | .missingRequiredArgument => "MissingRequiredArgument"
  | .argumentConflict => "ArgumentConflict"

/-- Help and the version are answers; all else is a fault. -/
def exitCode : Usage → Nat
  | .help => 0
  | .version => 0
  | _ => 2

/-- The name and version of the program. -/
def versionLine : String := "xbc 0.1.0\n"

/-- What is printed for an answer. -/
def output? : Usage → Option String
  | .version => some versionLine
  | _ => none

end Usage

end LedgerWire.Command
