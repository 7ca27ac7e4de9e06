import LedgerWire.Bytes
import LedgerWire.Registry.EnumTable

namespace LedgerWire

/-- The types of values without fields of their own. -/
inductive ScalarKind
  | uint8
  | uint16
  | uint32
  | uint64
  | hash128
  | hash160
  | hash256
  | amount
  | blob
  | account
  | pathSet
  | vector256
  | named (table : EnumKind)
  deriving DecidableEq, Repr

/-- How the values of a field are written: as a scalar, as an object or array of
further fields, or not at all. -/
inductive FieldKind
  | scalar (kind : ScalarKind)
  | object
  | array
  | unsupported
  deriving DecidableEq, Repr

namespace FieldKind

/-- The kinds that have a type name of their own. -/
def ofTypeName (typeName : String) : FieldKind :=
  match typeName with
  | "UInt8" => .scalar .uint8
  | "UInt16" => .scalar .uint16
  | "UInt32" => .scalar .uint32
  | "UInt64" => .scalar .uint64
  | "Hash128" => .scalar .hash128
  | "Hash160" => .scalar .hash160
  | "Hash256" => .scalar .hash256
  | "Amount" => .scalar .amount
  | "Blob" => .scalar .blob
  | "AccountID" => .scalar .account
  | "STObject" => .object
  | "STArray" => .array
  | "PathSet" => .scalar .pathSet
  | "Vector256" => .scalar .vector256
  | _ => .unsupported

/-- A field that bears the name of a table has codes of that table as values,
whatever its type is called. -/
def resolve (fieldName typeName : String) : FieldKind :=
  match EnumKind.ofField? fieldName with
  | some table => .scalar (.named table)
  | none => ofTypeName typeName

end FieldKind

/-- One field of a registry. Both codes are below `2 ^ 16`. -/
structure Field where
  name : String
  typeName : String
  typeCode : Nat
  nth : Nat
  lengthPrefixed : Bool
  serialized : Bool
  signing : Bool
  deriving DecidableEq, Repr, Inhabited

namespace Field

def kind (field : Field) : FieldKind :=
  FieldKind.resolve field.name field.typeName

/-- The place of a pair of codes among all pairs. -/
def ordinalOf (typeCode nth : Nat) : Nat := typeCode * 2 ^ 16 + nth

/-- The place of a field in an encoding: fields ascend by their ordinals. -/
def ordinal (field : Field) : Nat := ordinalOf field.typeCode field.nth

/-- The octets in front of a value. A code below 16 takes half of the first
octet, and a larger one leaves that half zero and follows in an octet of its
own, the type code first. -/
def headerOf (typeCode nth : Nat) : Bytes :=
  if typeCode < 16 then
    if nth < 16 then
      [UInt8.ofNat (typeCode * 16 + nth)]
    else
      [UInt8.ofNat (typeCode * 16), UInt8.ofNat nth]
  else
    if nth < 16 then
      [UInt8.ofNat nth, UInt8.ofNat typeCode]
    else
      [0, UInt8.ofNat typeCode, UInt8.ofNat nth]

/-- The header of a field, empty for a field that is never written. -/
def header (field : Field) : Bytes :=
  if field.serialized ∧ field.nth < 256 ∧ field.typeCode < 256 then
    headerOf field.typeCode field.nth
  else
    []

end Field

end LedgerWire
