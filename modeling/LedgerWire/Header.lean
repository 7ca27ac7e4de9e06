import LedgerWire.Cursor
import LedgerWire.Registry.Basic

namespace LedgerWire.Header

/-! ## Field headers -/

/-- A code that has an octet of its own, which it needs from 16 on. -/
def readExtended (fault : Nat → HeaderFault) : Read Nat := do
  let code ← Read.byte
  if code < 16 then
    throw (.invalidFieldHeader (fault code))
  return code

/-- Reads the type code and the place among the fields of that type. -/
def read : Read (Nat × Nat) := do
  let first ← Read.byte
  let typeCode ←
    if first / 16 = 0 then readExtended .typeCode else pure (first / 16)
  let nth ←
    if first % 16 = 0 then readExtended .fieldCode else pure (first % 16)
  return (typeCode, nth)

/-- Reads a header and finds the field that bears it. -/
def readField (registry : Registry) : Read Field := do
  let (typeCode, nth) ← read
  match registry.fieldAt? typeCode nth with
  | some field => return field
  | none => throw (.unknownOrdinal typeCode nth)

end LedgerWire.Header
