import LedgerWire.Json.Token

namespace LedgerWire.Json

/-! ## Ways of reading -/

/-- How much of a text is taken, and what is made of it. -/
structure Reading where
  /-- How many arrays and objects may be nested. -/
  levels : Nat
  /-- Makes an object from its entries in the order of the text. -/
  object : List (String × Json) → Json
  /-- Stands for a value without meaning: a number past the range, a string with
  a surrogate that has no partner, or an object with such a key. Where nothing
  stands for it, the text is refused. -/
  meaningless : Option Json

namespace Reading

variable (reading : Reading)

def stringOf? (text : Option String) : Option Json :=
  (text.map .string).or reading.meaningless

def numberOf? (value : Option Number) : Option Json :=
  (value.map .number).or reading.meaningless

def objectOf? (entries : List (Option String × Json)) : Option Json :=
  let named := entries.mapM fun (key, value) => key.map (·, value)
  (named.map reading.object).or reading.meaningless

end Reading

/-! ## Documents -/

/-- An array or object whose closing bracket is still to come. It holds its items
or entries so far in reverse, and an object also the key of the next entry. -/
inductive Frame
  | array (done : List Json)
  | object (done : List (Option String × Json)) (key : Option String)

/-- A place in a text: how many more arrays and objects may be opened, those that
are open, the innermost first, and the value in front of the place. Without one
a value has to follow. -/
structure Place where
  levels : Nat
  opened : List Frame
  value : Option Json
  rest : List Char

/-- Reads a key and the colon behind it. -/
def readKey (fuel : Nat) (text : List Char) : Option (Option String × List Char) :=
  match skipBlank text with
  | '"' :: rest => do
      let (key, rest) ← readString fuel (some []) rest
      match skipBlank rest with
      | ':' :: rest => return (key, rest)
      | _ => none
  | _ => none

namespace Place

variable (reading : Reading)

/-- Reads a value without parts, or opens an array or object. -/
def begin (fuel : Nat) (place : Place) : Option Place :=
  let found (value : Json) (rest : List Char) : Option Place :=
    some { place with value := some value, rest }
  match skipBlank place.rest with
  | 'n' :: 'u' :: 'l' :: 'l' :: rest => found .null rest
  | 't' :: 'r' :: 'u' :: 'e' :: rest => found (.bool true) rest
  | 'f' :: 'a' :: 'l' :: 's' :: 'e' :: rest => found (.bool false) rest
  | '"' :: rest => do
      let (text, rest) ← readString fuel (some []) rest
      found (← reading.stringOf? text) rest
  | '[' :: rest =>
      match place.levels, skipBlank rest with
      | 0, _ => none
      | _ + 1, ']' :: rest => found (.array []) rest
      | levels + 1, _ => some { place with levels, opened := .array [] :: place.opened, rest }
  | '\x7b' :: rest =>
      match place.levels, skipBlank rest with
      | 0, _ => none
      | _ + 1, '\x7d' :: rest => found (reading.object []) rest
      | levels + 1, _ => do
          let (key, rest) ← readKey fuel rest
          return { place with levels, opened := .object [] key :: place.opened, rest }
  | '-' :: rest => do
      let (value, rest) ← readNumber true rest
      found (← reading.numberOf? value) rest
  | rest => do
      let (value, rest) ← readNumber false rest
      found (← reading.numberOf? value) rest

/-- Puts a value into the innermost array or object, and closes that one if its
bracket follows. -/
def proceed (fuel : Nat) (place : Place) (value : Json) : Option Place :=
  match place.opened, skipBlank place.rest with
  | .array done :: outer, ',' :: rest =>
      some { place with opened := .array (value :: done) :: outer, value := none, rest }
  | .array done :: outer, ']' :: rest =>
      some ⟨place.levels + 1, outer, some (.array (value :: done).reverse), rest⟩
  | .object done key :: outer, ',' :: rest => do
      let (next, rest) ← readKey fuel rest
      return ⟨place.levels, .object ((key, value) :: done) next :: outer, none, rest⟩
  | .object done key :: outer, '\x7d' :: rest => do
      let object ← reading.objectOf? ((key, value) :: done).reverse
      return ⟨place.levels + 1, outer, some object, rest⟩
  | _, _ => none

/-- Reads on until nothing is open. A step takes at least one character, so
`fuel` has to exceed the characters left by one, and a string inside a step can
do with what is left of it. -/
def run : (fuel : Nat) → Place → Option (Json × List Char)
  | 0, _ => none
  | fuel + 1, place =>
      match place.opened, place.value with
      | [], some value => some (value, place.rest)
      | _, some value =>
          match place.proceed reading fuel value with
          | some next => run fuel next
          | none => none
      | _, none =>
          match place.begin reading fuel with
          | some next => run fuel next
          | none => none

end Place

/-- Reads a whole text. -/
def parseWith (reading : Reading) (text : String) : Option Json := do
  let characters := text.toList
  let (value, rest) ←
    Place.run reading (characters.length + 1) ⟨reading.levels, [], none, characters⟩
  if (skipBlank rest).isEmpty then some value else none

/-- The deepest nesting of a text that is accepted. -/
def maxLevels : Nat := 127

/-- Reads a text as a document, or nothing if it is not one. -/
def parse? (text : String) : Option Json :=
  parseWith ⟨maxLevels, ofEntries, none⟩ text

/-- Reads a text for a program that looks at parts of it alone: objects keep
their entries as they stand, a value without meaning reads as `null`, and
nesting has no limit. -/
def parseLoose? (text : String) : Option Json :=
  parseWith ⟨text.length, .object, some .null⟩ text

end LedgerWire.Json
