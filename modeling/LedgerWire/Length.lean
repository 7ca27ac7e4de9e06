import LedgerWire.Cursor

namespace LedgerWire.Length

/-! ## Length prefixes

A length takes one octet up to 192, two up to 12480, and three beyond. The first
octet tells which. -/

/-- The greatest length that can be written. -/
def greatest : Nat := 918744

def encode (length : Nat) : Except Error Bytes :=
  if length ≤ 192 then
    .ok [UInt8.ofNat length]
  else if length ≤ 12480 then
    .ok (Bytes.ofNat 2 (193 * 256 + (length - 193)))
  else if length ≤ greatest then
    .ok (Bytes.ofNat 3 (241 * 65536 + (length - 12481)))
  else
    .error (.lengthOverflow length greatest)

def read : Read Nat := do
  let first ← Read.byte
  if first ≤ 192 then
    return first
  else if first ≤ 240 then
    let low ← Read.byte
    return 193 + (first - 193) * 256 + low
  else if first ≤ 254 then
    let middle ← Read.byte
    let low ← Read.byte
    return 12481 + (first - 241) * 65536 + middle * 256 + low
  else
    throw (.invalidLengthPrefix (UInt8.ofNat first))

/-! ## Framed octets -/

/-- Puts its length in front of a string of octets. -/
def frame (bytes : Bytes) : Except Error Bytes :=
  return (← encode bytes.length) ++ bytes

/-- Reads a length and as many octets. -/
def readFrame : Read Bytes := do
  let length ← read
  Read.octets length

end LedgerWire.Length
