import LedgerWire.Cursor
import LedgerWire.Registry.Basic
import LedgerWire.Text.Whole

namespace LedgerWire

/-- A code of a table, written by name in documents. -/
structure EnumCode where
  table : EnumKind
  code : Nat
  deriving DecidableEq, Repr

namespace EnumCode

variable (registry : Registry)

def name? (value : EnumCode) : Option String :=
  (registry.table value.table).name? value.code

/-! ## Documents -/

/-- The code that a value gives: by a name of the table, by a number, or by the
text of a number. -/
def codeOfJson (table : EnumKind) : Json → Except Error Int
  | .string text =>
      match (registry.table table).code? text, Text.signed64? text.toList with
      | some code, _ => .ok code
      | none, some code => .ok code
      | none, none => .error (.unknownEnumValue table text)
  | .number value =>
      match value.toSigned? with
      | some code => .ok code
      | none => .error (.unknownEnumValue table value.toText)
  | found => .error (.unknownEnumValue table found.render)

/-- Takes a code that has a name, if the octets of the table hold it. -/
def ofCode (table : EnumKind) (code : Int) : Except Error EnumCode :=
  if ((registry.table table).name? code).isNone then
    .error (.unknownEnumValue table (toString code))
  else if 0 ≤ code ∧ code < 256 ^ table.width then
    .ok ⟨table, code.toNat⟩
  else
    .error (.outOfRange table.name (toString code))

def ofJson (table : EnumKind) (value : Json) : Except Error EnumCode := do
  ofCode registry table (← codeOfJson registry table value)

/-- The name of the code; a code without a name is not shown. -/
def toJson (value : EnumCode) : Except Error Json :=
  match value.name? registry with
  | some name => .ok (.string name)
  | none => .error (.unknownEnumValue value.table (toString value.code))

/-! ## Octets -/

def bytes (value : EnumCode) : Bytes := Bytes.ofNat value.table.width value.code

def read (table : EnumKind) : Read EnumCode :=
  return ⟨table, ← Read.number table.width⟩

end EnumCode

end LedgerWire
