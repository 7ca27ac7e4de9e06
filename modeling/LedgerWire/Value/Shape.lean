import LedgerWire.Error

namespace LedgerWire.Json

/-! ## Values of an expected shape

The subject names what the value was for, in the error if it has another
shape. -/

def asString (subject : String) : Json → Except Error String
  | .string text => .ok text
  | found => .error (.invalidValue subject (.expected .string found))

def asArray (subject : String) : Json → Except Error (List Json)
  | .array items => .ok items
  | found => .error (.invalidValue subject (.expected .array found))

def asObject (subject : String) : Json → Except Error (List (String × Json))
  | .object entries => .ok entries
  | found => .error (.invalidValue subject (.expected .object found))

end LedgerWire.Json
