import LedgerWire.Error
import LedgerWire.Text.Whole

namespace LedgerWire

/-- Why a document is not a record of a given kind. -/
inductive RecordFault
  | missingField (name : String)
  | noVariant
  | wrongType (found : Json) (expected : String)
  | tooShort (read : Nat) (expected : String)
  | tooLong (length : Nat)
  | notUnsigned (text : String)
  | outOfRange (value : Nat)
  | badHash (fault : Error)

namespace RecordFault

/-- A name between grave accents. -/
def accented (name : String) : String := "\x60" ++ name ++ "\x60"

/-- What a document is. -/
def kindOf : Json → String
  | .null => "null"
  | .bool true => "boolean " ++ accented "true"
  | .bool false => "boolean " ++ accented "false"
  | .number (.float value) => "floating point " ++ accented value.toText
  | .number value => "integer " ++ accented value.toText
  | .string text => "string " ++ Text.quoted text
  | .array _ => "sequence"
  | .object _ => "map"

def message : RecordFault → String
  | .missingField name => "missing field " ++ accented name
  | .noVariant => "data did not match any variant of untagged enum Raw"
  | .wrongType found expected =>
      "invalid type: " ++ kindOf found ++ ", expected " ++ expected
  | .tooShort read expected =>
      "invalid length " ++ toString read ++ ", expected " ++ expected
  | .tooLong length =>
      "invalid length " ++ toString length ++ ", expected fewer elements in array"
  | .notUnsigned text => "not an unsigned integer: " ++ Text.quoted text
  | .outOfRange value => "integer out of range: " ++ toString value
  | .badHash fault => fault.message

end RecordFault

namespace Record

/-! ## Parts of records -/

def text : Json → Except RecordFault String
  | .string text => .ok text
  | found => .error (.wrongType found "a string")

def hash (width : Nat) (value : Json) : Except RecordFault (Hash width) := do
  (Hash.ofHex width (← text value)).mapError .badHash

/-- A number, or its decimal text, that is below a limit. -/
def unsigned (limit : Nat) (value : Json) : Except RecordFault Nat := do
  let whole ←
    match value with
    | .number (.whole whole) => pure whole
    | .string text =>
        match Text.unsigned64? text.toList with
        | some whole => pure whole
        | none => throw (.notUnsigned text)
    | _ => throw .noVariant
  if whole < limit then
    return whole
  else
    throw (.outOfRange whole)

/-- A part that may be given as `null`. -/
def optional {α : Type} (read : Json → Except RecordFault α) :
    Json → Except RecordFault (Option α)
  | .null => .ok none
  | value => some <$> read value

/-! ## Records as objects

An object gives its parts by name, in any order and among other entries. -/

/-- The part under a name, where there is one. -/
def part? {α : Type} (entries : List (String × Json)) (name : String)
    (read : Json → Except RecordFault α) : Except RecordFault (Option α) :=
  (entries.lookup name).mapM read

def required {α : Type} (name : String) : Option α → Except RecordFault α
  | some part => .ok part
  | none => .error (.missingField name)

/-! ## Records as arrays

An array gives its parts by position. -/

/-- The part at a position. -/
def partAt {α : Type} (items : List Json) (position : Nat) (expected : String)
    (read : Json → Except RecordFault α) : Except RecordFault α :=
  match items[position]? with
  | some item => read item
  | none => .error (.tooShort position expected)

/-- The part at a position, where there may be none. -/
def partAt? {α : Type} (items : List Json) (position : Nat)
    (read : Json → Except RecordFault (Option α)) : Except RecordFault (Option α) :=
  match items[position]? with
  | some item => read item
  | none => .ok none

/-- Refuses items behind the last part. -/
def noMore (items : List Json) (count : Nat) : Except RecordFault Unit :=
  if items.length ≤ count then .ok () else .error (.tooLong items.length)

end Record

end LedgerWire
