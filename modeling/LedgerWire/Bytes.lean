import LedgerWire.Radix

namespace LedgerWire

/-- A string of octets. -/
abbrev Bytes := List UInt8

namespace Bytes

/-! ## Big-endian numbers -/

/-- The lowest `width` octets of a number, most significant first. -/
def ofNat : (width value : Nat) → Bytes
  | 0, _ => []
  | width + 1, value => ofNat width (value / 256) ++ [UInt8.ofNat value]

/-- The number whose octets these are, most significant first. -/
def toNat (bytes : Bytes) : Nat :=
  bytes.foldl (fun value byte => value * 256 + byte.toNat) 0

@[simp]
theorem length_ofNat (width value : Nat) : (ofNat width value).length = width := by
  induction width generalizing value with
  | zero => rfl
  | succ width inductionHypothesis => simp [ofNat, inductionHypothesis]

@[simp]
theorem toNat_nil : toNat [] = 0 := rfl

@[simp]
theorem toNat_append_singleton (bytes : Bytes) (byte : UInt8) :
    toNat (bytes ++ [byte]) = toNat bytes * 256 + byte.toNat := by
  simp [toNat]

theorem toNat_ofNat (width value : Nat) :
    toNat (ofNat width value) = value % 256 ^ width := by
  induction width generalizing value with
  | zero => simp [ofNat, Nat.mod_one]
  | succ width inductionHypothesis =>
      have split : value % 256 ^ (width + 1) =
          value % 256 + 256 * (value / 256 % 256 ^ width) := by
        rw [Nat.pow_succ, Nat.mul_comm (256 ^ width) 256, Nat.mod_mul]
      have lowest : (UInt8.ofNat value).toNat = value % 256 := by simp
      rw [ofNat, toNat_append_singleton, inductionHypothesis, split, lowest]
      omega

theorem toNat_ofNat_of_lt {width value : Nat} (bound : value < 256 ^ width) :
    toNat (ofNat width value) = value := by
  rw [toNat_ofNat, Nat.mod_eq_of_lt bound]

theorem ofNat_toNat (bytes : Bytes) : ofNat bytes.length (toNat bytes) = bytes := by
  rw [← List.reverse_reverse bytes]
  induction bytes.reverse with
  | nil => rfl
  | cons byte rest inductionHypothesis =>
      have bound := byte.toNat_lt
      have higher : (toNat rest.reverse * 256 + byte.toNat) / 256 = toNat rest.reverse := by
        omega
      have lowest : UInt8.ofNat (toNat rest.reverse * 256 + byte.toNat) = byte := by
        rw [← UInt8.toNat_inj, UInt8.toNat_ofNat']
        omega
      rw [List.reverse_cons, List.length_append, toNat_append_singleton]
      change ofNat (rest.reverse.length + 1) _ = _
      rw [ofNat, higher, lowest, inductionHypothesis]

theorem toNat_lt (bytes : Bytes) : toNat bytes < 256 ^ bytes.length := by
  have reduced := toNat_ofNat bytes.length (toNat bytes)
  rw [ofNat_toNat] at reduced
  rw [reduced]
  exact Nat.mod_lt _ (Nat.pow_pos (by omega))

end Bytes

/-! ## Texts -/

/-- The codes of a text in UTF-8. -/
def Bytes.ofText (text : String) : Bytes := text.toUTF8.data.toList

/-! ## Little-endian numbers -/

/-- The octets of a number in ascending significance. -/
def Bytes.ofNatLittle (width value : Nat) : Bytes :=
  (Bytes.ofNat width value).reverse

/-- The number whose octets these are, in ascending significance. -/
def Bytes.toNatLittle (bytes : Bytes) : Nat :=
  Bytes.toNat bytes.reverse

end LedgerWire
