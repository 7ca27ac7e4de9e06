namespace LedgerWire.Command

/-- What a configuration file sets. -/
structure Settings where
  definitions : Option String
  uppercaseHex : Bool
  pretty : Bool
  deriving DecidableEq, Repr

namespace Settings

/-- What holds without a configuration file. -/
def default : Settings := ⟨none, true, true⟩

/-! ## Characters of configuration files -/

def isSpace (c : Char) : Bool := c == ' ' || c == '\t'

def skipSpace (text : List Char) : List Char := text.dropWhile isSpace

/-- A character that may stand in a comment or a string of one line. -/
def isPlain (c : Char) : Bool :=
  c == '\t' || (0x20 ≤ c.toNat && c.toNat != 0x7F)

def isBareKey (c : Char) : Bool := c.isAlphanum || c == '-' || c == '_'

/-- Takes a line break off. -/
def newLine? : List Char → Option (List Char)
  | '\n' :: rest => some rest
  | '\r' :: '\n' :: rest => some rest
  | _ => none

/-- Skips spaces, line breaks and comments in front of an entry; nothing if a
comment holds a control character. -/
def skipLines : (fuel : Nat) → List Char → Option (List Char)
  | 0, text => some text
  | fuel + 1, text =>
      match skipSpace text with
      | '#' :: rest =>
          let after := rest.dropWhile isPlain
          match newLine? after with
          | some next => skipLines fuel next
          | none => if after.isEmpty then some [] else none
      | rest =>
          match newLine? rest with
          | some next => skipLines fuel next
          | none => some rest

/-- The rest of a line behind an entry: a comment at most. -/
def endLine? (text : List Char) : Option (List Char) :=
  let rest :=
    match skipSpace text with
    | '#' :: comment => comment.dropWhile isPlain
    | rest => rest
  if rest.isEmpty then some [] else newLine? rest

/-! ## Strings -/

def hexValue? (c : Char) : Option Nat :=
  if c.isDigit then some (c.toNat - 48)
  else if 'a' ≤ c ∧ c ≤ 'f' then some (c.toNat - 87)
  else if 'A' ≤ c ∧ c ≤ 'F' then some (c.toNat - 55)
  else none

/-- The character with a number of `count` hexadecimal digits. -/
def scalar? (count : Nat) (text : List Char) : Option (Char × List Char) := do
  let digits ← (text.take count).mapM hexValue?
  let code := digits.foldl (fun value digit => value * 16 + digit) 0
  if digits.length = count ∧ (Char.ofNat code).toNat = code then
    some (Char.ofNat code, text.drop count)
  else
    none

/-- The character that an escape stands for, read behind its backslash. -/
def escape? : List Char → Option (Char × List Char)
  | 'b' :: rest => some ('\x08', rest)
  | 't' :: rest => some ('\t', rest)
  | 'n' :: rest => some ('\n', rest)
  | 'f' :: rest => some ('\x0c', rest)
  | 'r' :: rest => some ('\r', rest)
  | '"' :: rest => some ('"', rest)
  | '\\' :: rest => some ('\\', rest)
  | 'u' :: rest => scalar? 4 rest
  | 'U' :: rest => scalar? 8 rest
  | _ => none

/-- A string on one line, read behind its opening quote. -/
def lineString? (quote : Char) : (fuel : Nat) → (done : List Char) → List Char →
    Option (String × List Char)
  | 0, _, _ => none
  | _, _, [] => none
  | fuel + 1, done, c :: rest =>
      if c = quote then
        some (String.ofList done.reverse, rest)
      else if c = '\\' ∧ quote = '"' then
        match escape? rest with
        | some (meant, rest) => lineString? quote fuel (meant :: done) rest
        | none => none
      else if isPlain c then
        lineString? quote fuel (c :: done) rest
      else
        none

/-- Skips spaces and line breaks behind a backslash that ends a line. -/
def continueLine? (text : List Char) : Option (List Char) :=
  match newLine? (skipSpace text) with
  | none => none
  | some rest => some (skipBreaks rest.length rest)
where
  skipBreaks : Nat → List Char → List Char
    | 0, text => text
    | fuel + 1, text =>
        match newLine? (skipSpace text) with
        | some rest => skipBreaks fuel rest
        | none => skipSpace text

/-- A string over several lines, read behind its opening quotes. Up to two
quotes may stand in front of the three that close it. -/
def blockString? (quote : Char) : (fuel : Nat) → (done : List Char) → List Char →
    Option (String × List Char)
  | 0, _, _ => none
  | _, _, [] => none
  | fuel + 1, done, c :: rest =>
      if c = quote then
        let quotes := ((c :: rest).takeWhile (· == quote)).length
        if quotes < 3 then
          blockString? quote fuel (c :: done) rest
        else if quotes ≤ 5 then
          some (String.ofList (List.replicate (quotes - 3) quote ++ done).reverse,
            (c :: rest).drop quotes)
        else
          none
      else if c = '\\' ∧ quote = '"' then
        match continueLine? rest with
        | some rest => blockString? quote fuel done rest
        | none =>
            match escape? rest with
            | some (meant, rest) => blockString? quote fuel (meant :: done) rest
            | none => none
      else
        match newLine? (c :: rest) with
        | some rest => blockString? quote fuel ('\n' :: done) rest
        | none =>
            if isPlain c then blockString? quote fuel (c :: done) rest else none

/-- A string in any of its four forms. A line break right behind three opening
quotes does not count. -/
def string? : List Char → Option (String × List Char)
  | '"' :: '"' :: '"' :: rest => blockString? '"' rest.length [] ((newLine? rest).getD rest)
  | '\'' :: '\'' :: '\'' :: rest => blockString? '\'' rest.length [] ((newLine? rest).getD rest)
  | '"' :: rest => lineString? '"' rest.length [] rest
  | '\'' :: rest => lineString? '\'' rest.length [] rest
  | _ => none

/-! ## Entries -/

/-- A key: bare, or a string on one line. -/
def key? : List Char → Option (String × List Char)
  | '"' :: rest => lineString? '"' rest.length [] rest
  | '\'' :: rest => lineString? '\'' rest.length [] rest
  | text =>
      match text.takeWhile isBareKey with
      | [] => none
      | name => some (String.ofList name, text.dropWhile isBareKey)

def bool? : List Char → Option (Bool × List Char)
  | 't' :: 'r' :: 'u' :: 'e' :: rest => some (true, rest)
  | 'f' :: 'a' :: 'l' :: 's' :: 'e' :: rest => some (false, rest)
  | _ => none

/-- What the entries so far set, each of them at most once. -/
structure Entries where
  definitions : Option String
  uppercaseHex : Option Bool
  pretty : Option Bool

/-- Reads the value of a key that is known and not yet set. -/
def value? (key : String) (entries : Entries) (text : List Char) :
    Option (Entries × List Char) :=
  match key, entries with
  | "definitions", { definitions := none, .. } => do
      let (path, rest) ← string? text
      return ({ entries with definitions := some path }, rest)
  | "uppercase_hex", { uppercaseHex := none, .. } => do
      let (flag, rest) ← bool? text
      return ({ entries with uppercaseHex := some flag }, rest)
  | "pretty", { pretty := none, .. } => do
      let (flag, rest) ← bool? text
      return ({ entries with pretty := some flag }, rest)
  | _, _ => none

/-- Reads entries to the end of the text. -/
def entries? : (fuel : Nat) → Entries → List Char → Option Entries
  | 0, _, _ => none
  | fuel + 1, entries, text => do
      let text ← skipLines text.length text
      if text.isEmpty then
        return entries
      let (key, rest) ← key? text
      match skipSpace rest with
      | '=' :: rest => do
          let (entries, rest) ← value? key entries (skipSpace rest)
          entries? fuel entries (← endLine? rest)
      | _ => none

/-- Reads the text of a configuration file. -/
def parse? (text : String) : Option Settings := do
  let characters :=
    match text.toList with
    | '\ufeff' :: rest => rest
    | characters => characters
  let entries ← entries? (characters.length + 1) ⟨none, none, none⟩ characters
  return {
    definitions := entries.definitions
    uppercaseHex := entries.uppercaseHex.getD default.uppercaseHex
    pretty := entries.pretty.getD default.pretty }

end Settings

end LedgerWire.Command
