import LedgerWire.Text.Invisible

namespace LedgerWire.Text

/-! ## Quoted text -/

/-- The lower-case hexadecimal digits of a number, without leading zeros. -/
def hexDigits (value : Nat) : String :=
  String.ofList (Nat.toDigits 16 value)

/-- One character between the quotes `mark`. The mark and the backslash are
escaped, and a character without a shape of its own is shown by its code. -/
def quotedChar (mark c : Char) : String :=
  match c with
  | '\x00' => "\\0"
  | '\t' => "\\t"
  | '\n' => "\\n"
  | '\r' => "\\r"
  | '\\' => "\\\\"
  | _ =>
    if c == mark then
      String.ofList ['\\', c]
    else if isInvisible c then
      "\\u\x7b" ++ hexDigits c.toNat ++ "\x7d"
    else
      c.toString

/-- A text in double quotes. -/
def quoted (text : String) : String :=
  "\"" ++ String.join (text.toList.map (quotedChar '"')) ++ "\""

/-- A character in single quotes. -/
def quotedSingle (c : Char) : String :=
  "'" ++ quotedChar '\'' c ++ "'"

/-- A list of quoted texts in brackets. -/
def quotedList (texts : List String) : String :=
  "[" ++ String.intercalate ", " (texts.map quoted) ++ "]"

end LedgerWire.Text
