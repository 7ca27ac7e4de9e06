import LedgerWire.Proofs.SelfDelimiting

/-!
# Lengths that are read

A length is read from one string of octets and no other, and up to the greatest one
that is written these are the octets that the writer gives. But the octets of the
last range reach further than the writer goes, and the reader follows them.
-/

namespace LedgerWire

private theorem Bytes.ofNat_append_octet (width high : Nat) {low : Nat} (bound : low < 256) :
    Bytes.ofNat (width + 1) (high * 256 + low) = Bytes.ofNat width high ++ [UInt8.ofNat low] := by
  have quotient : (high * 256 + low) / 256 = high := by omega
  have octet : UInt8.ofNat (high * 256 + low) = UInt8.ofNat low := by
    apply UInt8.toNat_inj.mp
    rw [UInt8.toNat_ofNat', UInt8.toNat_ofNat']
    omega
  rw [Bytes.ofNat, quotient, octet]

namespace Length

theorem length_spelling_pos (length : Nat) : 0 < (spelling length).length := by
  unfold spelling
  split
  · exact Nat.one_pos
  · split
    · rw [Bytes.length_ofNat]
      exact Nat.two_pos
    · rw [Bytes.length_ofNat]
      exact Nat.succ_pos 2

section Inversion

variable {before after : Cursor} {length : Nat}

/-- What was taken for a length spells it, range by range. -/
theorem read_eq_ok (succeeded : read before = .ok length after) :
    Took before (spelling length) after ∧ length ≤ 929984 := by
  obtain ⟨first, second, firstRead, others⟩ := Read.bind_eq_ok.mp succeeded
  obtain ⟨tookFirst, firstBound⟩ := Read.byte_eq_ok firstRead
  by_cases one : first ≤ 192
  · rw [if_pos one] at others
    obtain ⟨rfl, rfl⟩ := Read.pure_eq_ok.mp others
    rw [spelling, if_pos one]
    exact ⟨tookFirst, by omega⟩
  · rw [if_neg one] at others
    by_cases two : first ≤ 240
    · rw [if_pos two] at others
      obtain ⟨low, third, lowRead, last⟩ := Read.bind_eq_ok.mp others
      obtain ⟨rfl, rfl⟩ := Read.pure_eq_ok.mp last
      obtain ⟨tookLow, lowBound⟩ := Read.byte_eq_ok lowRead
      have number : 193 * 256 + (193 + (first - 193) * 256 + low - 193) = first * 256 + low := by
        omega
      rw [spelling, if_neg (by omega), if_pos (by omega), number,
        Bytes.ofNat_append_octet 1 first lowBound]
      exact ⟨tookFirst.trans tookLow, by omega⟩
    · rw [if_neg two] at others
      by_cases three : first ≤ 254
      · rw [if_pos three] at others
        obtain ⟨middle, third, middleRead, others⟩ := Read.bind_eq_ok.mp others
        obtain ⟨low, fourth, lowRead, last⟩ := Read.bind_eq_ok.mp others
        obtain ⟨rfl, rfl⟩ := Read.pure_eq_ok.mp last
        obtain ⟨tookMiddle, middleBound⟩ := Read.byte_eq_ok middleRead
        obtain ⟨tookLow, lowBound⟩ := Read.byte_eq_ok lowRead
        have number : 241 * 65536 +
            (12481 + (first - 241) * 65536 + middle * 256 + low - 12481) =
              (first * 256 + middle) * 256 + low := by
          omega
        rw [spelling, if_neg (by omega), if_neg (by omega), number,
          Bytes.ofNat_append_octet 2 _ lowBound, Bytes.ofNat_append_octet 1 first middleBound]
        exact ⟨(tookFirst.trans tookMiddle).trans tookLow, by omega⟩
      · rw [if_neg three] at others
        cases others

/-- A length is read exactly from its spelling, and there is none beyond 929984. -/
theorem read_eq_ok_iff :
    read before = .ok length after ↔
      length ≤ 929984 ∧ before.rest = spelling length ++ after.rest ∧
        after = ⟨before.position + (spelling length).length, after.rest, before.levels⟩ := by
  constructor
  · intro succeeded
    obtain ⟨took, bound⟩ := read_eq_ok succeeded
    have again := takes_spelling bound before.position after.rest before.levels
    rw [← took.rest, succeeded] at again
    exact ⟨bound, took.rest, (EStateM.Result.ok.inj again).2⟩
  · rintro ⟨bound, inFront, place⟩
    obtain ⟨position, rest, levels⟩ := before
    rw [place]
    dsimp only at inFront ⊢
    rw [inFront]
    exact takes_spelling bound position after.rest levels

/-- A length is read from no other octets than the ones that spell it. Exactly if it does
not exceed the greatest length that is written, these are the octets that are written for
it; else it is no more than 929984 and is not written at all. -/
theorem encode_of_read (succeeded : read before = .ok length after) :
    ∃ octets, before.rest = octets ++ after.rest ∧
      after = ⟨before.position + octets.length, after.rest, before.levels⟩ ∧
      (encode length = .ok octets ↔ length ≤ 918744) ∧
      (918744 < length → length ≤ 929984 ∧
        encode length = .error (.lengthOverflow length 918744)) ∧
      ∀ other behind, read other = .ok length behind → other.rest = octets ++ behind.rest := by
  obtain ⟨bound, inFront, place⟩ := read_eq_ok_iff.mp succeeded
  refine ⟨spelling length, inFront, place, ⟨length_le_of_encode, fun small => ?_⟩,
    fun great => ⟨bound, ?_⟩, fun other behind otherRead => (read_eq_ok_iff.mp otherRead).2.1⟩
  · exact encode_eq_ok.mpr ⟨small, rfl⟩
  · rw [encode_eq]
    exact if_neg (Nat.not_le.mpr great)

end Inversion

/-- The greatest length that is written. -/
theorem encode_of_read_greatest :
    read (Cursor.start [0xFE, 0xD4, 0x17, 0x05]) = .ok 918744 ⟨3, [0x05], 64⟩ ∧
      encode 918744 = .ok [0xFE, 0xD4, 0x17] := by
  have succeeded : read (Cursor.start [0xFE, 0xD4, 0x17, 0x05]) = .ok 918744 ⟨3, [0x05], 64⟩ := rfl
  obtain ⟨octets, inFront, _, written, _⟩ := encode_of_read succeeded
  have whole : [0xFE, 0xD4, 0x17] ++ [0x05] = octets ++ [0x05] := inFront
  rw [List.append_cancel_right whole]
  exact ⟨succeeded, written.mpr (Nat.le_refl _)⟩

/-- The octets behind those of the greatest length that is written are read as one more,
which no octets are written for. -/
theorem read_beyond_greatest :
    read (Cursor.start [0xFE, 0xD4, 0x18]) = .ok 918745 ⟨3, [], 64⟩ ∧
      ∀ octets, encode 918745 ≠ .ok octets := by
  refine ⟨rfl, fun octets written => ?_⟩
  have small := length_le_of_encode written
  exact absurd small (by decide)

end Length

end LedgerWire
