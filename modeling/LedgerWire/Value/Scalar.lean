import LedgerWire.Context
import LedgerWire.Value.Amount
import LedgerWire.Value.EnumCode
import LedgerWire.Value.PathSet
import LedgerWire.Value.Unsigned

namespace LedgerWire

/-- A value without fields of its own. -/
inductive Scalar
  | uint8 (value : UInt8)
  | uint16 (value : UInt16)
  | uint32 (value : UInt32)
  | uint64 (value : UInt64)
  | hash128 (value : Hash 16)
  | hash160 (value : Hash 20)
  | hash256 (value : Hash 32)
  | amount (value : Amount)
  | blob (bytes : Bytes)
  | account (value : AccountId)
  | pathSet (value : PathSet)
  | vector256 (items : List (Hash 32))
  | named (value : EnumCode)
  deriving DecidableEq, Repr

namespace Scalar

/-! ## Hashes and octets -/

/-- Reads the digits of a hash. An empty text stands for the zero hash of 16
octets, and for no other. -/
def hashOfJson (width : Nat) (value : Json) : Except Error (Hash width) := do
  let text ← value.asString "Hash"
  if width = 16 ∧ text.isEmpty then
    return Hash.zero width
  else
    Hash.ofHex width text

def hashToJson {width : Nat} (hash : Hash width) : Json :=
  .string (if width = 16 ∧ hash.isZero then "" else hash.toHex)

/-- Reads a hash, of which an announced length has to be the width. An announced
length of zero stands for the zero hash. -/
def readHash (width : Nat) : (size : Option Nat) → Read (Hash width)
  | none => Read.hash width
  | some 0 => return Hash.zero width
  | some size =>
      if size = width then Read.hash width else throw (.invalidLength width size)

def blobOfJson (value : Json) : Except Error Bytes := do
  let text ← value.asString "Blob"
  match Hex.decode text with
  | .ok bytes => return bytes
  | .error fault => throw (.invalidHex (.blob text) fault)

def vectorOfJson (value : Json) : Except Error (List (Hash 32)) := do
  (← value.asArray "Vector256").mapM fun item => do
    Hash.ofHex 32 (← item.asString "Vector256")

def readHashes (width : Nat) : (count : Nat) → Read (List (Hash width))
  | 0 => return []
  | count + 1 => do
      let hash ← Read.hash width
      return hash :: (← readHashes width count)

/-! ## Documents -/

/-- Reads a value of a document. -/
def ofJson (context : Context) (value : Json) : ScalarKind → Except Error Scalar
  | .uint8 => return .uint8 (UInt8.ofNat (← Unsigned.ofJson "UInt8" 1 value))
  | .uint16 => return .uint16 (UInt16.ofNat (← Unsigned.ofJson "UInt16" 2 value))
  | .uint32 => return .uint32 (UInt32.ofNat (← Unsigned.ofJson "UInt32" 4 value))
  | .uint64 => return .uint64 (UInt64.ofNat (← Unsigned.ofHexJson value))
  | .hash128 => return .hash128 (← hashOfJson 16 value)
  | .hash160 => return .hash160 (← hashOfJson 20 value)
  | .hash256 => return .hash256 (← hashOfJson 32 value)
  | .amount => return .amount (← Amount.ofJson context.addresses value)
  | .blob => return .blob (← blobOfJson value)
  | .account => return .account (← Account.ofJson context.addresses "AccountID" value)
  | .pathSet => return .pathSet (← PathSet.ofJson context.addresses value)
  | .vector256 => return .vector256 (← vectorOfJson value)
  | .named table => return .named (← EnumCode.ofJson context.registry table value)

/-- Shows a value in a document. -/
def toJson (context : Context) : Scalar → Except Error Json
  | .uint8 value => .ok (Json.ofNat value.toNat)
  | .uint16 value => .ok (Json.ofNat value.toNat)
  | .uint32 value => .ok (Json.ofNat value.toNat)
  | .uint64 value => .ok (.string (Hex.encode (Bytes.ofNat 8 value.toNat)))
  | .hash128 value => .ok (hashToJson value)
  | .hash160 value => .ok (hashToJson value)
  | .hash256 value => .ok (hashToJson value)
  | .amount value => .ok (value.toJson context.addresses)
  | .blob bytes => .ok (.string (Hex.encode bytes))
  | .account value => .ok (Account.toJson context.addresses value)
  | .pathSet value => .ok (value.toJson context.addresses)
  | .vector256 items => .ok (.array (items.map fun item => .string item.toHex))
  | .named value => value.toJson context.registry

/-! ## Octets -/

def bytes : Scalar → Bytes
  | .uint8 value => Bytes.ofNat 1 value.toNat
  | .uint16 value => Bytes.ofNat 2 value.toNat
  | .uint32 value => Bytes.ofNat 4 value.toNat
  | .uint64 value => Bytes.ofNat 8 value.toNat
  | .hash128 value => value.bytes
  | .hash160 value => value.bytes
  | .hash256 value => value.bytes
  | .amount value => value.bytes
  | .blob bytes => bytes
  | .account value => value.bytes
  | .pathSet value => value.bytes
  | .vector256 items => items.flatMap Hash.bytes
  | .named value => value.bytes

/-- Reads a value. `size` is the announced length, where there is one. -/
def read (size : Option Nat) : ScalarKind → Read Scalar
  | .uint8 => return .uint8 (UInt8.ofNat (← Read.number 1))
  | .uint16 => return .uint16 (UInt16.ofNat (← Read.number 2))
  | .uint32 => return .uint32 (UInt32.ofNat (← Read.number 4))
  | .uint64 => return .uint64 (UInt64.ofNat (← Read.number 8))
  | .hash128 => return .hash128 (← readHash 16 size)
  | .hash160 => return .hash160 (← readHash 20 size)
  | .hash256 => return .hash256 (← readHash 32 size)
  | .amount => return .amount (← Amount.read)
  | .blob =>
      match size with
      | none => throw (.invalidValue "Blob" .blobWithoutLength)
      | some size => return .blob (← Read.octets size)
  | .account => return .account (← readHash 20 size)
  | .pathSet => return .pathSet (← PathSet.read)
  | .vector256 =>
      match size with
      | none => throw (.invalidValue "Vector256" .vectorWithoutLength)
      | some size =>
          if size % 32 = 0 then
            return .vector256 (← readHashes 32 (size / 32))
          else
            throw (.invalidLength ((size / 32 + 1) * 32) size)
  | .named table => return .named (← EnumCode.read table)

end Scalar

end LedgerWire
