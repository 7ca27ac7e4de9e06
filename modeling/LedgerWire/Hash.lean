import LedgerWire.Hex

namespace LedgerWire

/-- A string of exactly `width` octets. -/
structure Hash (width : Nat) where
  bytes : Bytes
  length_bytes : bytes.length = width
  deriving DecidableEq

/-- The identifier of an account. -/
abbrev AccountId := Hash 20

namespace Hash

variable {width : Nat}

instance : Repr (Hash width) := ⟨fun hash _ => Hex.encode hash.bytes⟩

@[ext]
theorem ext {left right : Hash width} (same : left.bytes = right.bytes) : left = right := by
  cases left
  cases right
  cases same
  rfl

def zero (width : Nat) : Hash width :=
  ⟨List.replicate width 0, List.length_replicate⟩

instance : Inhabited (Hash width) := ⟨zero width⟩

/-- The octets as a hash, if there are `width` of them. -/
def ofBytes? (width : Nat) (bytes : Bytes) : Option (Hash width) :=
  if exact : bytes.length = width then some ⟨bytes, exact⟩ else none

def isZero (hash : Hash width) : Bool := hash.bytes.all (· == 0)

def toHex (hash : Hash width) : String := Hex.encode hash.bytes

/-- The half octet at a depth, the higher half of an octet first. -/
def nibble (hash : Hash width) (depth : Nat) : Fin 16 :=
  let byte := (hash.bytes.getD (depth / 2) 0).toNat
  if depth % 2 = 0 then Fin.ofNat 16 (byte / 16) else Fin.ofNat 16 (byte % 16)

/-- Hashes are ordered as their octets are, the first difference deciding. -/
instance : LE (Hash width) := ⟨fun left right => left.bytes ≤ right.bytes⟩

instance (left right : Hash width) : Decidable (left ≤ right) :=
  inferInstanceAs (Decidable (left.bytes ≤ right.bytes))

@[simp]
theorem ofBytes?_bytes (hash : Hash width) : ofBytes? width hash.bytes = some hash := by
  simp [ofBytes?, hash.length_bytes]

end Hash

end LedgerWire
