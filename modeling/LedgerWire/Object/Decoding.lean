import LedgerWire.Header
import LedgerWire.Length
import LedgerWire.Value.Scalar

namespace LedgerWire.Object

variable (context : Context)

/-! ## Fields in a row -/

/-- Reads fields up to the end marker of this name or the end of the octets.
A field takes an octet at least, so `fuel` need not exceed the octets left. -/
def readFields (readValue : Field → Read Json) (marker : String) :
    (fuel : Nat) → Read (List (String × Json))
  | 0 => return []
  | fuel + 1 => do
      if ← Read.isEnd then
        return []
      let field ← Header.readField context.registry
      if field.name = marker then
        return []
      let value ← readValue field
      return (field.name, value) :: (← readFields readValue marker fuel)

/-- Reads the fields of an object; of two with one name the later counts. -/
def readObject (readValue : Field → Read Json) : Read Json := do
  let entries ← readFields context readValue "ObjectEndMarker" (← get).remaining
  return Json.ofEntries entries

/-- Reads the items of an array, each of which is one field. -/
def readArray (readValue : Field → Read Json) : Read Json := do
  let entries ← readFields context readValue "ArrayEndMarker" (← get).remaining
  return .array (entries.map fun entry => .object [entry])

/-! ## Values of fields -/

/-- Reads the announced length of a field that has one. -/
def readSize (field : Field) : Read (Option Nat) :=
  if field.lengthPrefixed then some <$> Length.read else pure none

/-- Reads the length of a field and its value, inside which `readValue` reads. -/
def readFieldValueWith (readValue : Field → Read Json) (field : Field) : Read Json := do
  let size ← readSize field
  match field.kind with
  | .scalar kind =>
      let scalar ← Scalar.read size kind
      match scalar.toJson context with
      | .ok shown => return shown
      | .error fault => throw fault
  | .object => Read.nested (readObject context readValue)
  | .array => Read.nested (readArray context readValue)
  | .unsupported => throw (.unsupportedField field.name)

/-- Reads the value of a field where at most `levels` more objects and arrays
may be opened. -/
def readFieldValueAt : (levels : Nat) → Field → Read Json
  | 0 => readFieldValueWith context fun _ => throw (.nestingTooDeep Cursor.maxDepth)
  | levels + 1 => readFieldValueWith context (readFieldValueAt levels)

/-- Reads the value of a field, with its length if it has one. -/
def readFieldValue (field : Field) : Read Json := do
  readFieldValueAt context (← get).levels field

/-! ## Documents -/

/-- Reads an object up to its end marker or the end of the octets. -/
def read : Read Json := do
  readObject context (readFieldValueAt context (← get).levels)

/-- Reads the items of an array up to its end marker or the end of the octets. -/
def readItems : Read Json := do
  readArray context (readFieldValueAt context (← get).levels)

/-- Decodes an object. -/
def decode (bytes : Bytes) : Except Error Json :=
  Read.ofBytes (read context) bytes

end LedgerWire.Object
