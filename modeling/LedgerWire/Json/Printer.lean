import LedgerWire.Json.Value
import LedgerWire.Text.Quoted

namespace LedgerWire.Json

/-! ## Strings -/

/-- A character inside a string. Quotes, backslashes and control characters are
escaped. -/
def escapeChar (c : Char) : String :=
  match c with
  | '"' => "\\\""
  | '\\' => "\\\\"
  | '\n' => "\\n"
  | '\r' => "\\r"
  | '\t' => "\\t"
  | '\x08' => "\\b"
  | '\x0c' => "\\f"
  | _ =>
    if c.toNat < 0x20 then
      let digits := Nat.toDigits 16 c.toNat
      "\\u" ++ String.ofList (List.replicate (4 - digits.length) '0' ++ digits)
    else
      c.toString

def renderString (text : String) : String :=
  text.foldl (fun done c => done ++ escapeChar c) "\"" ++ "\""

/-! ## Documents on one line -/

mutual

/-- The document without blanks. -/
def render : Json → String
  | .null => "null"
  | .bool true => "true"
  | .bool false => "false"
  | .number value => value.toText
  | .string text => renderString text
  | .array [] => "[]"
  | .array (item :: rest) => "[" ++ render item ++ renderItems rest ++ "]"
  | .object [] => "\x7b\x7d"
  | .object ((key, value) :: rest) =>
      "\x7b" ++ renderString key ++ ":" ++ render value ++ renderEntries rest ++ "\x7d"

def renderItems : List Json → String
  | [] => ""
  | item :: rest => "," ++ render item ++ renderItems rest

def renderEntries : List (String × Json) → String
  | [] => ""
  | (key, value) :: rest =>
      "," ++ renderString key ++ ":" ++ render value ++ renderEntries rest

end

/-! ## Documents over several lines -/

/-- A line break and two spaces for each level. -/
def newLine (level : Nat) : String :=
  "\n" ++ String.ofList (List.replicate (2 * level) ' ')

mutual

/-- The document with one item or entry on a line, `level` levels deep. -/
def prettyAt (level : Nat) : Json → String
  | .array [] => "[]"
  | .array (item :: rest) =>
      "[" ++ newLine (level + 1) ++ prettyAt (level + 1) item ++
        prettyItems (level + 1) rest ++ newLine level ++ "]"
  | .object [] => "\x7b\x7d"
  | .object ((key, value) :: rest) =>
      "\x7b" ++ newLine (level + 1) ++ renderString key ++ ": " ++
        prettyAt (level + 1) value ++ prettyEntries (level + 1) rest ++ newLine level ++ "\x7d"
  | scalar => render scalar

def prettyItems (level : Nat) : List Json → String
  | [] => ""
  | item :: rest => "," ++ newLine level ++ prettyAt level item ++ prettyItems level rest

def prettyEntries (level : Nat) : List (String × Json) → String
  | [] => ""
  | (key, value) :: rest =>
      "," ++ newLine level ++ renderString key ++ ": " ++ prettyAt level value ++
        prettyEntries level rest

end

def pretty (value : Json) : String := prettyAt 0 value

end LedgerWire.Json
