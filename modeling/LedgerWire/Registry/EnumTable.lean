namespace LedgerWire

/-- The fields whose numbers are written by name in a document. -/
inductive EnumKind
  | transactionType
  | ledgerEntryType
  | transactionResult
  deriving DecidableEq, Repr

namespace EnumKind

def name : EnumKind → String
  | .transactionType => "TransactionType"
  | .ledgerEntryType => "LedgerEntryType"
  | .transactionResult => "TransactionResult"

/-- The number of octets that a code takes. -/
def width : EnumKind → Nat
  | .transactionResult => 1
  | .transactionType => 2
  | .ledgerEntryType => 2

/-- The table of the field with this name. -/
def ofField? (fieldName : String) : Option EnumKind :=
  [transactionType, ledgerEntryType, transactionResult].find? fun kind => kind.name == fieldName

end EnumKind

/-- The names and codes of one table. Names do not repeat; of two names with one
code the first is the name of the code. -/
structure EnumTable where
  kind : EnumKind
  entries : List (String × Int)

namespace EnumTable

def code? (table : EnumTable) (name : String) : Option Int :=
  table.entries.lookup name

def name? (table : EnumTable) (code : Int) : Option String :=
  (table.entries.find? fun entry => entry.2 == code).map (·.1)

/-- The names of the codes from zero up, in ascending order of code. Negative
codes stand for nothing that is ever encoded. -/
def names (table : EnumTable) : List String :=
  let coded := table.entries.filter fun (name, code) =>
    0 ≤ code && table.name? code == some name
  (coded.mergeSort fun left right => left.2 ≤ right.2).map (·.1)

def size (table : EnumTable) : Nat := table.entries.length

def isEmpty (table : EnumTable) : Bool := table.entries.isEmpty

end EnumTable

end LedgerWire
