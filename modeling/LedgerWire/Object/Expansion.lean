import LedgerWire.Context
import LedgerWire.Value.Shape

namespace LedgerWire.Object

/-! ## Extended addresses in objects

Any text of an object that is an extended address gives way to the classic one.
Its tag goes to the field for tags that belongs to the account's field. -/

/-- The field for the tag of the account in a field. -/
def tagField? : String → Option String
  | "Account" => some "SourceTag"
  | "Destination" => some "DestinationTag"
  | _ => none

variable (writing : CheckedText)

/-- The entries in the place of one with an extended address. -/
def expandAddress (entries : List (String × Json)) (key : String)
    (address : ExtendedAddress) : Except Error (List (String × Json)) :=
  let classic := (key, Json.string (Address.encodeClassic writing address.account))
  match address.tag with
  | none => .ok [classic]
  | some tag =>
      match tagField? key with
      | none => .error (.unexpectedTag key)
      | some tagField =>
          if (entries.lookup tagField).isSome then
            .error (.tagConflict key tagField)
          else
            .ok [classic, (tagField, Json.ofNat tag.toNat)]

/-- The entries in the place of one entry of an object. -/
def expandEntry (entries : List (String × Json)) :
    String × Json → Except Error (List (String × Json))
  | (key, .string text) =>
      match Address.extended? writing text with
      | some address => expandAddress writing entries key address
      | none => .ok [(key, .string text)]
  | entry => .ok [entry]

/-- The entries of an object with classic addresses alone. -/
def expand (entries : List (String × Json)) : Except Error (List (String × Json)) := do
  return (← entries.mapM (expandEntry writing entries)).flatten

end LedgerWire.Object
