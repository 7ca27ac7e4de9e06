import LedgerWire.Registry.Basic

namespace LedgerWire.Registry

/-! ## Indexed fields

A field is told by its name, and a written one also by its ordinal. Kept beside the fields,
tables of their positions answer for both without a search. -/

/-- The field that an entry declares, if it is no placeholder. -/
def declaration? (types : List (String × Int)) (entry : FieldEntry) :
    Except DefinitionsError (Option Field) :=
  match types.lookup entry.typeName with
  | none => .error (.unknownType entry.name entry.typeName)
  | some typeCode =>
      match code? typeCode, code? entry.nth with
      | some typeCode, some nth =>
          .ok <| some
            { name := entry.name
              typeName := entry.typeName
              typeCode
              nth
              lengthPrefixed := entry.lengthPrefixed
              serialized := entry.serialized
              signing := entry.signing }
      | _, _ => .ok none

/-- The fields in the order of their document, and the position of each under its name
and, if it is written, under its ordinal. -/
structure Index where
  fields : List Field
  byName : List (String × Nat)
  byOrdinal : List (Nat × Nat)

namespace Index

def empty : Index := ⟨[], [], []⟩

def field? (index : Index) (name : String) : Option Field :=
  (index.byName.lookup name).bind fun position => index.fields[position]?

def atOrdinal? (index : Index) (ordinal : Nat) : Option Field :=
  (index.byOrdinal.lookup ordinal).bind fun position => index.fields[position]?

/-- The written field with these codes. -/
def fieldAt? (index : Index) (typeCode nth : Nat) : Option Field :=
  index.atOrdinal? (Field.ordinalOf typeCode nth)

/-- Puts a field behind the others. -/
def push (index : Index) (field : Field) : Index where
  fields := index.fields ++ [field]
  byName := (field.name, index.fields.length) :: index.byName
  byOrdinal :=
    if field.serialized then
      (field.ordinal, index.fields.length) :: index.byOrdinal
    else
      index.byOrdinal

/-- Adds an entry, unless it is a placeholder. -/
def addEntry (types : List (String × Int)) (index : Index) (entry : FieldEntry) :
    Except DefinitionsError Index := do
  match ← declaration? types entry with
  | none => return index
  | some field =>
      if (index.byName.lookup field.name).isSome then
        throw (.duplicateName field.name)
      else
        match field.serialized, index.atOrdinal? field.ordinal with
        | true, some first =>
            throw (.duplicateOrdinal first.name field.name field.ordinal)
        | _, _ => return index.push field

/-- The indexed fields of a document, or the first fault among them. -/
def ofDefinitions (document : Definitions) : Except DefinitionsError Index :=
  document.fields.foldlM (addEntry document.types) empty

end Index

end LedgerWire.Registry

namespace LedgerWire.EnumTable

/-! ## Indexed codes

The entries of a table arrive one after another, in whatever order they are held. Two
tables are filled from them, one for each direction. -/

/-- The code under each name and the name under each code. -/
structure Index where
  byName : List (String × Int)
  byCode : List (Int × String)

namespace Index

def empty : Index := ⟨[], []⟩

/-- Takes an entry in. Of two with one name the later counts, and of two with one code
the earlier. -/
def insert (index : Index) (entry : String × Int) : Index where
  byName := entry :: index.byName
  byCode :=
    if (index.byCode.lookup entry.2).isSome then
      index.byCode
    else
      (entry.2, entry.1) :: index.byCode

/-- The tables after entries that arrive in this order. -/
def ofEntries (entries : List (String × Int)) : Index := entries.foldl insert empty

def code? (index : Index) (name : String) : Option Int := index.byName.lookup name

def name? (index : Index) (code : Int) : Option String := index.byCode.lookup code

end Index

end LedgerWire.EnumTable
