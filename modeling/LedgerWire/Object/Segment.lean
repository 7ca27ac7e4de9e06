import LedgerWire.Length
import LedgerWire.Object.Expansion
import LedgerWire.Value.EnumCode

namespace LedgerWire

/-- A field of an encoded object and the octets behind its header: the value,
with its length in front or its end marker behind where the field has one. -/
structure Segment where
  field : Field
  body : Bytes
  deriving DecidableEq, Repr

def Segment.bytes (segment : Segment) : Bytes := segment.field.header ++ segment.body

namespace Object

/-- Ends an object inside another value. -/
def objectEnd : UInt8 := 0xE1

/-- Ends an array. -/
def arrayEnd : UInt8 := 0xF1

/-! ## Which entries are written -/

variable (registry : Registry)

/-- The field of an entry that is written. -/
def writtenField? (signingOnly : Bool) : String × Json → Option Field
  | (_, .null) => none
  | (key, _) =>
      (registry.field? key).filter fun field =>
        field.serialized && (!signingOnly || field.signing)

/-- Puts a value in front of the first one whose field is not lower. -/
def insertField (item : Field × Json) : List (Field × Json) → List (Field × Json)
  | [] => [item]
  | first :: rest =>
      if item.1.ordinal ≤ first.1.ordinal then
        item :: first :: rest
      else
        first :: insertField item rest

/-- The values that are written, with their fields. -/
def writtenFields (signingOnly : Bool) (entries : List (String × Json)) :
    List (Field × Json) :=
  entries.filterMap fun entry =>
    (writtenField? registry signingOnly entry).map fun field => (field, entry.2)

/-- The values that are written, in ascending order of their fields. -/
def canonicalFields (signingOnly : Bool) (entries : List (String × Json)) :
    List (Field × Json) :=
  (writtenFields registry signingOnly entries).foldr insertField []

/-- Whether the entries are those of a pseudo-transaction that changes the list
of validators. Its account is written without a value. -/
def changesValidators (entries : List (String × Json)) : Bool :=
  match entries.lookup "TransactionType" with
  | none => false
  | some value =>
      match EnumCode.ofJson registry .transactionType value with
      | .ok code => code.name? registry == some "UNLModify"
      | .error _ => false

/-! ## How they are written -/

/-- Writes the octets of a value for a field, without header or length. -/
abbrev ValueWriter := Field → Json → Except Error Bytes

/-- Writes one field. If the value is omitted, a field with a length in front
has the length zero. -/
def segment (writeValue : ValueWriter) (field : Field) (value : Json) (omitted : Bool) :
    Except Error Segment := do
  if field.header.isEmpty then
    throw (.unsupportedField field.name)
  if field.lengthPrefixed then
    let bytes ← if omitted then pure [] else writeValue field value
    return ⟨field, ← Length.frame bytes⟩
  else
    let bytes ← writeValue field value
    return ⟨field, if field.kind = .object then bytes ++ [objectEnd] else bytes⟩

/-- The segments of an object with these entries. -/
def segments (writing : CheckedText) (writeValue : ValueWriter) (signingOnly : Bool)
    (entries : List (String × Json)) : Except Error (List Segment) := do
  let expanded ← expand writing entries
  let omitsAccount := changesValidators registry expanded
  (canonicalFields registry signingOnly expanded).mapM fun (field, value) =>
    segment writeValue field value (omitsAccount && field.name == "Account")

/-- The entry of an array's item, which is an object with a single entry. -/
def singleEntry : Json → Except Error (String × Json)
  | .object [entry] => .ok entry
  | item => .error (.invalidValue "STArray" (.notSingleEntry item))

/-- The segment of an array's item. -/
def itemSegment (writeValue : ValueWriter) (item : Json) : Except Error Segment := do
  let (name, value) ← singleEntry item
  match registry.field? name with
  | none => throw (.unknownField name)
  | some field =>
      if field.kind = .object then
        segment writeValue field value false
      else
        throw (.invalidValue "STArray" (.notObjectField name))

end Object

end LedgerWire
