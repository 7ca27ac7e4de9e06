import LedgerWire.Cursor
import LedgerWire.Value.Shape

namespace LedgerWire

/-- A currency. A standard currency has its three letters at the 13th octet and
zeros elsewhere, and the native currency is all zeros. -/
structure Currency where
  hash : Hash 20
  deriving DecidableEq, Repr

namespace Currency

/-- The code of the native currency. -/
def nativeCode : String := "XAH"

def native : Currency := ⟨Hash.zero 20⟩

def bytes (currency : Currency) : Bytes := currency.hash.bytes

def isNative (currency : Currency) : Bool := currency.hash.isZero

/-! ## Reading codes -/

/-- The currency with these letters in the place of a standard code. -/
def ofLetters (letters : Bytes) : Except Error Currency := do
  let hash ← Hash.ofBytes 20 (List.replicate 12 0 ++ letters ++ List.replicate 5 0)
  return ⟨hash⟩

/-- Reads the native code, any three octets, or 40 upper-case digits. -/
def parse (code : String) : Except Error Currency :=
  if code = nativeCode then
    .ok native
  else if code.utf8ByteSize = 3 then
    ofLetters (Bytes.ofText code)
  else if Hex.isUpper 40 code then do
    let hash ← Hash.ofHex 20 code
    return ⟨hash⟩
  else
    .error (.invalidCurrency code)

/-! ## Showing codes -/

/-- The octets besides letters and digits that a shown code may have. -/
def symbols : Bytes := Bytes.ofText "?!@#$%^&*()\x7b\x7d[]|"

def isCodeByte (byte : UInt8) : Bool :=
  (Char.ofNat byte.toNat).isAlphanum || symbols.contains byte

/-- The three octets in the place of a standard code. -/
def letters (currency : Currency) : Bytes := (currency.bytes.drop 12).take 3

/-- Whether there are zeros all around the place of a standard code. -/
def isStandard (currency : Currency) : Bool :=
  (currency.bytes.take 12).all (· == 0) && (currency.bytes.drop 15).all (· == 0)

def lettersText (letters : Bytes) : String :=
  String.ofList (letters.map fun byte => Char.ofNat byte.toNat)

/-- The code of three letters, if the currency has one. The letters of the
native code do not make one, since they would not be read back. -/
def isoCode? (currency : Currency) : Option String :=
  if currency.isNative then
    some nativeCode
  else if currency.isStandard ∧ currency.letters.all isCodeByte
      ∧ lettersText currency.letters ≠ nativeCode then
    some (lettersText currency.letters)
  else
    none

/-- The code of three letters, or else 40 digits. -/
def toText (currency : Currency) : String :=
  currency.isoCode?.getD currency.hash.toHex

/-! ## Documents and octets -/

def ofJson (value : Json) : Except Error Currency := do
  parse (← value.asString "currency")

def toJson (currency : Currency) : Json := .string currency.toText

def read : Read Currency := return ⟨← Read.hash 20⟩

end Currency

end LedgerWire
