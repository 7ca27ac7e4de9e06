import LedgerWire.Json.Value
import LedgerWire.Radix

namespace LedgerWire.Json

/-! ## Tokens -/

def isBlank (c : Char) : Bool :=
  c == ' ' || c == '\n' || c == '\t' || c == '\r'

def skipBlank (text : List Char) : List Char :=
  text.dropWhile isBlank

def hexDigit? (c : Char) : Option Nat :=
  if c.isDigit then some (c.toNat - 48)
  else if 'a' ≤ c ∧ c ≤ 'f' then some (c.toNat - 87)
  else if 'A' ≤ c ∧ c ≤ 'F' then some (c.toNat - 55)
  else none

/-- The number of four hexadecimal digits in front, and what follows. -/
def readUnit : List Char → Option (Nat × List Char)
  | a :: b :: c :: d :: rest => do
      let digits ← [a, b, c, d].mapM hexDigit?
      return (digits.foldl (fun value digit => value * 16 + digit) 0, rest)
  | _ => none

/-- The second half of a pair of surrogates in front, and what follows. -/
def lowSurrogate? : List Char → Option (Nat × List Char)
  | '\\' :: 'u' :: rest =>
      (readUnit rest).filter fun (unit, _) => 0xDC00 ≤ unit && unit < 0xE000
  | _ => none

/-- The character that an escape stands for, read behind its backslash. A
character past the basic plane takes a pair of surrogates, and a surrogate
without its partner stands for none. -/
def readEscape : List Char → Option (Option Char × List Char)
  | '"' :: rest => some (some '"', rest)
  | '\\' :: rest => some (some '\\', rest)
  | '/' :: rest => some (some '/', rest)
  | 'b' :: rest => some (some '\x08', rest)
  | 'f' :: rest => some (some '\x0c', rest)
  | 'n' :: rest => some (some '\n', rest)
  | 'r' :: rest => some (some '\r', rest)
  | 't' :: rest => some (some '\t', rest)
  | 'u' :: rest => do
      let (unit, rest) ← readUnit rest
      if 0xDC00 ≤ unit ∧ unit < 0xE000 then
        return (none, rest)
      else if 0xD800 ≤ unit ∧ unit < 0xDC00 then
        match lowSurrogate? rest with
        | some (low, rest) =>
            return (some (Char.ofNat (0x10000 + (unit - 0xD800) * 0x400 + (low - 0xDC00))), rest)
        | none => return (none, rest)
      else
        return (some (Char.ofNat unit), rest)
  | _ => none

/-- Reads a string behind its opening quote; `done` holds the characters so far
in reverse, unless one of them has no meaning. A step takes at least one
character, so `fuel` need not exceed the length of the text. -/
def readString (fuel : Nat) (done : Option (List Char)) (text : List Char) :
    Option (Option String × List Char) :=
  match fuel, text with
  | _, [] => none
  | _, '"' :: rest => some (done.map fun done => String.ofList done.reverse, rest)
  | 0, _ => none
  | fuel + 1, '\\' :: rest =>
      match readEscape rest with
      | none => none
      | some (meant, rest) => readString fuel (do return (← meant) :: (← done)) rest
  | fuel + 1, c :: rest =>
      if c.toNat < 0x20 then none else readString fuel (done.map (c :: ·)) rest

/-! ## Numbers -/

def digitValue (c : Char) : Nat := c.toNat - 48

/-- Takes digits into a significand as long as it stays below `2 ^ 64`. Gives
the significand and the digits left over. -/
def accumulate (significand : Nat) : List Char → Nat × List Char
  | [] => (significand, [])
  | digit :: rest =>
      let next := significand * 10 + digitValue digit
      if next < 2 ^ 64 then accumulate next rest else (significand, digit :: rest)

/-- The number of a literal's parts. Digits past the 64th bit of the significand
count for their place only. -/
def numberOfParts? (negative : Bool) (whole : List Char) (fraction : Option (List Char))
    (exponent : Option Int) : Option Number :=
  let (significand, dropped) := accumulate 0 whole
  match fraction, exponent with
  | none, none =>
      if dropped.isEmpty then
        Number.ofWhole? negative significand
      else
        (Binary64.ofDecimal? significand dropped.length).map fun magnitude =>
          .float { magnitude with negative }
  | _, _ =>
      let places := fraction.getD []
      let (significand, left) := accumulate significand places
      let shift : Int := dropped.length - (places.length - left.length : Nat)
      (Binary64.ofDecimal? significand (shift + exponent.getD 0)).map fun magnitude =>
        .float { magnitude with negative }

/-- The digits in front, of which there must be one. -/
def readDigits (text : List Char) : Option (List Char × List Char) :=
  match text.takeWhile Char.isDigit with
  | [] => none
  | digits => some (digits, text.dropWhile Char.isDigit)

/-- The whole part of a number, which starts with zero only if it is zero. -/
def readWhole : List Char → Option (List Char × List Char)
  | '0' :: rest =>
      if (rest.takeWhile Char.isDigit).isEmpty then some (['0'], rest) else none
  | text => readDigits text

def readFraction : List Char → Option (Option (List Char) × List Char)
  | '.' :: rest => (readDigits rest).map fun (digits, rest) => (some digits, rest)
  | text => some (none, text)

def readExponentDigits (sign : Int) (text : List Char) : Option (Option Int × List Char) :=
  (readDigits text).map fun (digits, rest) =>
    (some (sign * Radix.value 10 (digits.map digitValue)), rest)

def readExponent : List Char → Option (Option Int × List Char)
  | c :: rest =>
      if c == 'e' || c == 'E' then
        match rest with
        | '+' :: rest => readExponentDigits 1 rest
        | '-' :: rest => readExponentDigits (-1) rest
        | rest => readExponentDigits 1 rest
      else
        some (none, c :: rest)
  | [] => some (none, [])

/-- Reads a number behind its sign. A number past the range has no meaning. -/
def readNumber (negative : Bool) (text : List Char) :
    Option (Option Number × List Char) := do
  let (whole, rest) ← readWhole text
  let (fraction, rest) ← readFraction rest
  let (exponent, rest) ← readExponent rest
  return (numberOfParts? negative whole fraction exponent, rest)

end LedgerWire.Json
