import LedgerWire.Object.Segment
import LedgerWire.Value.Scalar

namespace LedgerWire.Object

variable (context : Context)

/-! ## Objects and arrays

The octets of a value inside are those that `writeValue` gives. -/

def objectBytes (writeValue : ValueWriter) (signingOnly : Bool) (value : Json) :
    Except Error Bytes := do
  let entries ← value.asObject "STObject"
  let parts ← segments context.registry context.addresses writeValue signingOnly entries
  return parts.flatMap Segment.bytes

def arrayBytes (writeValue : ValueWriter) (value : Json) : Except Error Bytes := do
  let items ← value.asArray "STArray"
  let parts ← items.mapM (itemSegment context.registry writeValue)
  return parts.flatMap Segment.bytes ++ [arrayEnd]

/-! ## Values of fields -/

/-- Writes a value whose inner values `writeValue` writes. Of the fields of an
inner object none is left out for signing. -/
def valueBytesWith (writeValue : ValueWriter) : ValueWriter := fun field value =>
  match field.kind with
  | .scalar kind => return (← Scalar.ofJson context value kind).bytes
  | .object => objectBytes context writeValue false value
  | .array => arrayBytes context writeValue value
  | .unsupported => throw (.unsupportedField field.name)

/-- Writes a value in which at most `levels` arrays and objects are nested. -/
def valueBytes : (levels : Nat) → ValueWriter
  | 0 => valueBytesWith context fun field _ => throw (.unsupportedField field.name)
  | levels + 1 => valueBytesWith context (valueBytes levels)

/-- Writes the value of a field. -/
def fieldValueBytes : ValueWriter := fun field value =>
  valueBytes context value.depth field value

/-- Writes the header and the value of a field. -/
def fieldBytes (field : Field) (value : Json) (omitted : Bool) : Except Error Bytes :=
  return (← segment (fieldValueBytes context) field value omitted).bytes

/-! ## Documents -/

/-- The segments of an object. -/
def segmentsOf (signingOnly : Bool) (entries : List (String × Json)) :
    Except Error (List Segment) :=
  segments context.registry context.addresses (fieldValueBytes context) signingOnly entries

/-- Encodes an object as its fields in ascending order. Only the fields that a
signature covers are written if `signingOnly` is set. -/
def encode (signingOnly : Bool) (value : Json) : Except Error Bytes :=
  objectBytes context (fieldValueBytes context) signingOnly value

/-- Encodes an array of objects, with its end marker. -/
def encodeArray (value : Json) : Except Error Bytes :=
  arrayBytes context (fieldValueBytes context) value

end LedgerWire.Object
