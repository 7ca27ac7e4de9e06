import LedgerWire.Command.Run

open LedgerWire

/-- The text of a file, if it can be read. -/
def fileTextFrom (path : String) : IO (Option String) := do
  try
    return some (← IO.FS.readFile path)
  catch _ =>
    return none

/-- The whole standard input, if it is text. -/
def standardInputText : IO (Option String) := do
  try
    return some (← (← IO.getStdin).readToEnd)
  catch _ =>
    return none

def main (arguments : List String) : IO UInt32 := do
  match Command.parse arguments with
  | .error usage =>
      match usage.output? with
      | some output => IO.print output
      | none => IO.eprintln usage.name
      return UInt32.ofNat usage.exitCode
  | .ok invocation =>
      match ← Command.run ⟨fileTextFrom, standardInputText⟩ invocation with
      | .ok output =>
          IO.print output
          return 0
      | .error failure =>
          IO.eprintln ("Error: " ++ failure.message)
          return 1
