import LedgerWire.Error
import LedgerWire.Proofs.Outcome

/-!
# Texts of hexadecimal digits

A text is read as octets exactly when its codes are digits, two for each octet.
Octets written in upper-case digits are therefore read back, and the text that
was read is, but for the case of its letters, the one that is written.
-/

namespace LedgerWire

/-! ## Codes of texts -/

namespace Bytes

private theorem ofText_ofList (chars : List Char) :
    ofText (String.ofList chars) = chars.flatMap String.utf8EncodeChar := by
  simp [ofText, List.utf8Encode]

private theorem ofText_eq_flatMap (text : String) :
    ofText text = text.toList.flatMap String.utf8EncodeChar := by
  rw [← ofText_ofList, String.ofList_toList]

private theorem utf8EncodeChar_of_ascii {c : Char} (ascii : c.toNat < 128) :
    String.utf8EncodeChar c = [UInt8.ofNat c.toNat] := by
  have small : c.val.toNat ≤ 0x7f := by
    change c.toNat ≤ 127
    omega
  simp only [String.utf8EncodeChar, small, ↓reduceIte]
  rfl

/-- The first code of a character outside ASCII has its highest bit set. -/
theorem utf8EncodeChar_of_not_ascii {c : Char} (wide : 128 ≤ c.toNat) :
    ∃ first rest, String.utf8EncodeChar c = first :: rest ∧ 128 ≤ first.toNat := by
  have large : ¬ c.val.toNat ≤ 0x7f := by
    change ¬ c.toNat ≤ 127
    omega
  simp only [String.utf8EncodeChar, large, ↓reduceIte]
  split
  · refine ⟨_, _, rfl, ?_⟩
    simp only [UInt8.toNat_ofNat']
    omega
  · split
    · refine ⟨_, _, rfl, ?_⟩
      simp only [UInt8.toNat_ofNat']
      omega
    · refine ⟨_, _, rfl, ?_⟩
      simp only [UInt8.toNat_ofNat']
      omega

theorem ofText_of_ascii {text : String} (ascii : ∀ c ∈ text.toList, c.toNat < 128) :
    ofText text = text.toList.map fun c => UInt8.ofNat c.toNat := by
  rw [ofText_eq_flatMap]
  generalize text.toList = chars at ascii
  induction chars with
  | nil =>
      rfl
  | cons c rest inductionHypothesis =>
      rw [List.flatMap_cons, utf8EncodeChar_of_ascii (ascii c List.mem_cons_self),
        inductionHypothesis fun other member => ascii other (List.mem_cons_of_mem c member)]
      rfl

private theorem ascii_of_ofText {text : String} (small : ∀ code ∈ ofText text, code.toNat < 128) :
    ∀ c ∈ text.toList, c.toNat < 128 := by
  intro c member
  by_contra wide
  obtain ⟨first, rest, codes, large⟩ := utf8EncodeChar_of_not_ascii (Nat.le_of_not_lt wide)
  have present : first ∈ ofText text := by
    rw [ofText_eq_flatMap]
    exact List.mem_flatMap.mpr ⟨c, member, codes ▸ List.mem_cons_self⟩
  have bound := small first present
  omega

theorem length_ofText (text : String) : (ofText text).length = text.utf8ByteSize := by
  rw [← String.size_toByteArray]
  simp [ofText]

theorem length_le_length_ofText (text : String) : text.length ≤ (ofText text).length := by
  rw [ofText_eq_flatMap, ← String.length_toList]
  induction text.toList with
  | nil =>
      exact Nat.le_refl _
  | cons c rest inductionHypothesis =>
      have positive := c.utf8Size_pos
      rw [List.flatMap_cons, List.length_cons, List.length_append, String.length_utf8EncodeChar]
      omega

end Bytes

/-- The text with its small ASCII letters made capital. -/
def Text.upper (text : String) : String := String.ofList (text.toList.map Char.toUpper)

namespace Hex

/-! ## Single digits -/

theorem digitValue?_digit {value : Nat} (bound : value < 16) :
    (digit value).toNat < 128 ∧
      digitValue? (UInt8.ofNat (digit value).toNat) = some value := by
  decide +revert

theorem digit_of_digitValue? {c : Char} (ascii : c.toNat < 128) {value : Nat}
    (read : digitValue? (UInt8.ofNat c.toNat) = some value) :
    digit value = c.toUpper ∧ value < 16 := by
  have checked : ∀ code < 128, ∀ value, digitValue? (UInt8.ofNat code) = some value →
      digit value = (Char.ofNat code).toUpper ∧ value < 16 := by
    intro code bound value read
    have table : ∀ code < 128, (digitValue? (UInt8.ofNat code)).all fun value =>
        digit value == (Char.ofNat code).toUpper && decide (value < 16) := by
      decide
    have entry := table code bound
    rw [read] at entry
    simpa using entry
  simpa using checked c.toNat ascii value read

private theorem toNat_lt_of_digitValue? {code : UInt8} {value : Nat}
    (read : digitValue? code = some value) : code.toNat < 128 := by
  unfold digitValue? at read
  grind

private theorem value_lt_of_digitValue? {code : UInt8} {value : Nat}
    (read : digitValue? code = some value) : value < 16 := by
  unfold digitValue? at read
  grind

/-! ## Texts of digits -/

/-- A text whose codes are digits. -/
def Spells (text : String) (digits : List Nat) : Prop :=
  (Bytes.ofText text).mapM digitValue? = some digits

private theorem spells_digits {digits : List Nat} (bound : ∀ value ∈ digits, value < 16) :
    Spells (String.ofList (digits.map digit)) digits := by
  have ascii : ∀ c ∈ (String.ofList (digits.map digit)).toList, c.toNat < 128 := by
    intro c member
    rw [String.toList_ofList] at member
    obtain ⟨value, present, rfl⟩ := List.mem_map.mp member
    exact (digitValue?_digit (bound value present)).1
  rw [Spells, Bytes.ofText_of_ascii ascii, String.toList_ofList]
  clear ascii
  induction digits with
  | nil =>
      rfl
  | cons value rest inductionHypothesis =>
      simp only [List.map_cons, List.mapM_cons,
        (digitValue?_digit (bound value List.mem_cons_self)).2,
        inductionHypothesis fun other member => bound other (List.mem_cons_of_mem value member)]
      rfl

namespace Spells

variable {text : String} {digits : List Nat}

theorem ascii (spells : Spells text digits) : ∀ c ∈ text.toList, c.toNat < 128 := by
  apply Bytes.ascii_of_ofText
  intro code member
  obtain ⟨value, _, read⟩ := Outcome.exists_of_mem_left (Outcome.mapM_eq_some.mp spells) member
  exact toNat_lt_of_digitValue? read

theorem forall₂ (spells : Spells text digits) :
    List.Forall₂ (fun c value => digit value = c.toUpper ∧ value < 16) text.toList digits := by
  have ascii := spells.ascii
  rw [Spells, Bytes.ofText_of_ascii ascii, Outcome.mapM_eq_some, List.forall₂_map_left_iff]
    at spells
  generalize text.toList = chars at spells ascii
  induction spells with
  | nil =>
      exact .nil
  | cons read _ inductionHypothesis =>
      refine .cons (digit_of_digitValue? (ascii _ List.mem_cons_self) read) ?_
      exact inductionHypothesis fun c member => ascii c (List.mem_cons_of_mem _ member)

theorem lt (spells : Spells text digits) : ∀ value ∈ digits, value < 16 := by
  intro value member
  obtain ⟨c, _, _, bound⟩ := Outcome.exists_of_mem_right spells.forall₂ member
  exact bound

theorem upper (spells : Spells text digits) :
    Text.upper text = String.ofList (digits.map digit) := by
  have related := spells.forall₂
  clear spells
  rw [Text.upper]
  congr 1
  generalize text.toList = chars at related
  induction related with
  | nil =>
      rfl
  | cons head _ inductionHypothesis =>
      rw [List.map_cons, List.map_cons, head.1, inductionHypothesis]

theorem utf8ByteSize (spells : Spells text digits) : text.utf8ByteSize = digits.length := by
  rw [← Bytes.length_ofText]
  exact (Outcome.mapM_eq_some.mp spells).length_eq

theorem length (spells : Spells text digits) : text.length = digits.length := by
  rw [← String.length_toList]
  exact spells.forall₂.length_eq

end Spells

/-! ## Octets -/

/-- The higher and the lower half of each octet. -/
def halves (bytes : Bytes) : List Nat :=
  bytes.flatMap fun byte => [byte.toNat / 16, byte.toNat % 16]

@[simp]
theorem halves_cons (byte : UInt8) (rest : Bytes) :
    halves (byte :: rest) = byte.toNat / 16 :: byte.toNat % 16 :: halves rest := rfl

@[simp]
theorem length_halves (bytes : Bytes) : (halves bytes).length = 2 * bytes.length := by
  induction bytes with
  | nil =>
      rfl
  | cons byte rest inductionHypothesis =>
      simp only [halves_cons, List.length_cons, inductionHypothesis]
      omega

theorem halves_lt (bytes : Bytes) : ∀ value ∈ halves bytes, value < 16 := by
  intro value member
  obtain ⟨byte, _, half⟩ := List.mem_flatMap.mp member
  have bound := byte.toNat_lt
  simp only [List.mem_cons, List.not_mem_nil, or_false] at half
  omega

theorem encode_eq_halves (bytes : Bytes) :
    encode bytes = String.ofList ((halves bytes).map digit) := by
  simp [encode, halves, List.map_flatMap]

theorem spells_encode (bytes : Bytes) : Spells (encode bytes) (halves bytes) := by
  rw [encode_eq_halves]
  exact spells_digits (halves_lt bytes)

theorem length_encode (bytes : Bytes) : (encode bytes).length = 2 * bytes.length := by
  rw [(spells_encode bytes).length, length_halves]

private theorem decodePairs_of_mapM {codes bytes : Bytes}
    (read : codes.mapM digitValue? = some (halves bytes)) (done : Bytes) (position : Nat) :
    decodePairs done position codes = .ok (done.reverse ++ bytes) := by
  induction bytes generalizing codes done position with
  | nil =>
      cases Outcome.mapM_eq_some.mp read
      simp [decodePairs]
  | cons byte rest inductionHypothesis =>
      rw [halves_cons, Outcome.mapM_eq_some] at read
      rcases read with _ | ⟨high, _ | ⟨low, others⟩⟩
      have whole : UInt8.ofNat (byte.toNat / 16 * 16 + byte.toNat % 16) = byte := by
        rw [Nat.div_add_mod', UInt8.ofNat_toNat]
      rw [decodePairs, high, low]
      simp only [whole]
      rw [inductionHypothesis (Outcome.mapM_eq_some.mpr others)]
      simp

private theorem mapM_of_decodePairs {done : Bytes} {position : Nat} {codes bytes : Bytes}
    (decoded : decodePairs done position codes = .ok bytes) :
    ∃ tail, bytes = done.reverse ++ tail ∧ codes.mapM digitValue? = some (halves tail) := by
  fun_induction decodePairs done position codes with
  | case1 done position =>
      cases decoded
      exact ⟨[], by simp, rfl⟩
  | case2 =>
      cases decoded
  | case3 =>
      cases decoded
  | case4 =>
      cases decoded
  | case5 done position high low rest highValue lowValue lowRead highRead
      inductionHypothesis =>
      obtain ⟨tail, rfl, others⟩ := inductionHypothesis decoded
      have highBound := value_lt_of_digitValue? highRead
      have lowBound := value_lt_of_digitValue? lowRead
      refine ⟨UInt8.ofNat (highValue * 16 + lowValue) :: tail, by simp, ?_⟩
      have whole : (UInt8.ofNat (highValue * 16 + lowValue)).toNat = highValue * 16 + lowValue := by
        simp only [UInt8.toNat_ofNat']
        omega
      have first : (highValue * 16 + lowValue) / 16 = highValue := by omega
      have second : (highValue * 16 + lowValue) % 16 = lowValue := by omega
      rw [halves_cons, whole, first, second, Outcome.mapM_eq_some]
      exact .cons highRead (.cons lowRead (Outcome.mapM_eq_some.mp others))

/-- A text is read as octets exactly when it spells their halves. -/
theorem decode_eq_ok {text : String} {bytes : Bytes} :
    decode text = .ok bytes ↔ Spells text (halves bytes) := by
  simp only [decode, Spells]
  constructor
  · intro decoded
    split at decoded
    · cases decoded
    · obtain ⟨tail, rfl, read⟩ := mapM_of_decodePairs decoded
      exact read
  · intro read
    have lengths := (Outcome.mapM_eq_some.mp read).length_eq
    rw [length_halves] at lengths
    have even : ¬ (Bytes.ofText text).length % 2 = 1 := by omega
    simp only [even, ↓reduceIte]
    exact decodePairs_of_mapM read [] 0

@[simp]
theorem decode_encode (bytes : Bytes) : decode (encode bytes) = .ok bytes := by
  rw [decode_eq_ok]
  exact spells_encode bytes

theorem encode_of_decode {text : String} {bytes : Bytes} (decoded : decode text = .ok bytes) :
    encode bytes = Text.upper text := by
  rw [decode_eq_ok] at decoded
  rw [decoded.upper, encode_eq_halves]

end Hex

/-! ## Hashes -/

namespace Hash

theorem bytes_of_ofBytes? {width : Nat} {bytes : Bytes} {hash : Hash width}
    (found : ofBytes? width bytes = some hash) : hash.bytes = bytes := by
  unfold ofBytes? at found
  split at found
  · cases found
    rfl
  · cases found

theorem ofHex_eq_ok {width : Nat} {text : String} {hash : Hash width} :
    ofHex width text = .ok hash ↔ Hex.decode text = .ok hash.bytes := by
  unfold ofHex
  constructor
  · intro read
    split at read
    · split at read
      · cases read
      · rename_i bytes decoded
        split at read
        · rename_i found
          cases read
          have same : hash.bytes = bytes := bytes_of_ofBytes? found
          rw [decoded, same]
        · cases read
    · cases read
  · intro decoded
    have spelled : Hex.Spells text (Hex.halves hash.bytes) := by
      rwa [← Hex.decode_eq_ok]
    have size := spelled.utf8ByteSize
    rw [Hex.length_halves, hash.length_bytes] at size
    simp [size, decoded]

@[simp]
theorem ofHex_toHex {width : Nat} (hash : Hash width) : ofHex width hash.toHex = .ok hash := by
  rw [ofHex_eq_ok]
  exact Hex.decode_encode hash.bytes

theorem toHex_of_ofHex {width : Nat} {text : String} {hash : Hash width}
    (read : ofHex width text = .ok hash) : hash.toHex = Text.upper text := by
  rw [ofHex_eq_ok] at read
  exact Hex.encode_of_decode read

theorem length_toHex {width : Nat} (hash : Hash width) : hash.toHex.length = 2 * width := by
  rw [toHex, Hex.length_encode, hash.length_bytes]

end Hash

end LedgerWire
