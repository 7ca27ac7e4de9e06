import LedgerWire.Header
import LedgerWire.Length
import LedgerWire.Proofs.Outcome
import LedgerWire.Proofs.Reading

/-!
# Lengths and headers

What stands in front of a value, a length or a field's header, is read back
whatever follows it. So a string behind its length tells where it ends.
-/

namespace LedgerWire

/-! ## Lengths -/

namespace Length

private theorem ofNat_two (value : Nat) :
    Bytes.ofNat 2 value = [UInt8.ofNat (value / 256)] ++ [UInt8.ofNat value] := rfl

private theorem ofNat_three (value : Nat) :
    Bytes.ofNat 3 value =
      [UInt8.ofNat (value / 256 / 256)] ++ ([UInt8.ofNat (value / 256)] ++ [UInt8.ofNat value]) :=
  rfl

theorem takes_read_one {length : Nat} (bound : length ≤ 192) :
    Takes read [UInt8.ofNat length] length := by
  apply (Takes.byte (UInt8.ofNat length)).bind_pure
  have value : (UInt8.ofNat length).toNat = length := by
    simp only [UInt8.toNat_ofNat']
    omega
  rw [value, if_pos bound]

private theorem takes_read_two {length : Nat} (low : 192 < length) (high : length ≤ 12480) :
    Takes read (Bytes.ofNat 2 (193 * 256 + (length - 193))) length := by
  rw [ofNat_two]
  have lead : (UInt8.ofNat ((193 * 256 + (length - 193)) / 256)).toNat =
      193 + (length - 193) / 256 := by
    simp only [UInt8.toNat_ofNat']
    omega
  have last : (UInt8.ofNat (193 * 256 + (length - 193))).toNat = (length - 193) % 256 := by
    simp only [UInt8.toNat_ofNat']
    omega
  apply (Takes.byte _).bind
  have sum : 193 + (193 + (length - 193) / 256 - 193) * 256 + (length - 193) % 256 = length := by
    omega
  rw [lead, if_neg (by omega), if_pos (by omega)]
  refine (Takes.byte _).bind_pure ?_
  rw [last, sum]

/-- Three octets also spell lengths beyond the greatest that is written. -/
theorem takes_read_three {length : Nat} (low : 12480 < length) (high : length ≤ 929984) :
    Takes read (Bytes.ofNat 3 (241 * 65536 + (length - 12481))) length := by
  rw [ofNat_three]
  have lead : (UInt8.ofNat ((241 * 65536 + (length - 12481)) / 256 / 256)).toNat =
      241 + (length - 12481) / 65536 := by
    simp only [UInt8.toNat_ofNat']
    omega
  have middle : (UInt8.ofNat ((241 * 65536 + (length - 12481)) / 256)).toNat =
      (length - 12481) / 256 % 256 := by
    simp only [UInt8.toNat_ofNat']
    omega
  have last : (UInt8.ofNat (241 * 65536 + (length - 12481))).toNat = (length - 12481) % 256 := by
    simp only [UInt8.toNat_ofNat']
    omega
  apply (Takes.byte _).bind
  have sum : 12481 + (241 + (length - 12481) / 65536 - 241) * 65536 +
      (length - 12481) / 256 % 256 * 256 + (length - 12481) % 256 = length := by
    omega
  rw [lead, if_neg (by omega), if_neg (by omega), if_pos (by omega)]
  refine (Takes.byte _).bind ((Takes.byte _).bind_pure ?_)
  rw [middle, last, sum]

/-- The octets of a length, also of one too great to be written. -/
def spelling (length : Nat) : Bytes :=
  if length ≤ 192 then
    [UInt8.ofNat length]
  else if length ≤ 12480 then
    Bytes.ofNat 2 (193 * 256 + (length - 193))
  else
    Bytes.ofNat 3 (241 * 65536 + (length - 12481))

theorem encode_eq (length : Nat) :
    encode length =
      if length ≤ greatest then .ok (spelling length)
      else .error (.lengthOverflow length greatest) := by
  unfold encode spelling
  by_cases one : length ≤ 192
  · have small : length ≤ greatest := Nat.le_trans one (by decide)
    rw [if_pos one, if_pos one, if_pos small]
  · by_cases two : length ≤ 12480
    · have small : length ≤ greatest := Nat.le_trans two (by decide)
      rw [if_neg one, if_neg one, if_pos two, if_pos two, if_pos small]
    · rw [if_neg one, if_neg one, if_neg two, if_neg two]

theorem encode_eq_ok {length : Nat} {bytes : Bytes} :
    encode length = .ok bytes ↔ length ≤ greatest ∧ spelling length = bytes := by
  rw [encode_eq]
  by_cases small : length ≤ greatest
  · rw [if_pos small, Except.ok.injEq, and_iff_right small]
  · rw [if_neg small]
    constructor
    · intro written
      cases written
    · intro written
      exact absurd written.1 small

theorem takes_spelling {length : Nat} (bound : length ≤ 929984) :
    Takes read (spelling length) length := by
  unfold spelling
  by_cases one : length ≤ 192
  · rw [if_pos one]
    exact takes_read_one one
  · by_cases two : length ≤ 12480
    · rw [if_neg one, if_pos two]
      exact takes_read_two (by omega) two
    · rw [if_neg one, if_neg two]
      exact takes_read_three (by omega) bound

theorem takes_read {length : Nat} {bytes : Bytes} (written : encode length = .ok bytes) :
    Takes read bytes length := by
  obtain ⟨small, rfl⟩ := encode_eq_ok.mp written
  exact takes_spelling (Nat.le_trans small (by decide))

theorem frame_eq_ok {bytes framed : Bytes} :
    frame bytes = .ok framed ↔
      ∃ front, encode bytes.length = .ok front ∧ framed = front ++ bytes := by
  simp only [frame, Outcome.bind_eq_ok, Outcome.pure_eq_ok, Except.ok.injEq]
  exact exists_congr fun front => and_congr_right fun _ => eq_comm

theorem exists_frame {bytes : Bytes} (short : bytes.length ≤ greatest) :
    ∃ framed, frame bytes = .ok framed := by
  have written : encode bytes.length = .ok (spelling bytes.length) :=
    encode_eq_ok.mpr ⟨short, rfl⟩
  exact ⟨spelling bytes.length ++ bytes, frame_eq_ok.mpr ⟨_, written, rfl⟩⟩

/-! ### Framed strings -/

theorem length_le_of_encode {length : Nat} {front : Bytes} (written : encode length = .ok front) :
    length ≤ greatest :=
  (encode_eq_ok.mp written).1

private theorem takes_readFrame {bytes framed : Bytes} (written : frame bytes = .ok framed) :
    Takes readFrame framed bytes := by
  obtain ⟨front, encoded, rfl⟩ := frame_eq_ok.mp written
  exact (takes_read encoded).bind (Takes.octets bytes)

/-- Where a framed string ends is told by its length. -/
theorem frame_append_inj {left right leftFramed rightFramed leftRest rightRest : Bytes}
    (leftWritten : frame left = .ok leftFramed) (rightWritten : frame right = .ok rightFramed)
    (same : leftFramed ++ leftRest = rightFramed ++ rightRest) :
    left = right ∧ leftRest = rightRest := by
  have leftTaken := takes_readFrame leftWritten 0 leftRest 0
  have rightTaken := takes_readFrame rightWritten 0 rightRest 0
  rw [same, rightTaken] at leftTaken
  obtain ⟨value, cursor⟩ := EStateM.Result.ok.inj leftTaken
  exact ⟨value.symm, (congrArg Cursor.rest cursor).symm⟩

/-- A string is framed exactly if a length can tell how long it is. Then it is read back
in front of any octets, which stay unread, and no other string's frame starts with its
frame. -/
theorem readFrame_frame (bytes : Bytes) :
    ((∃ framed, frame bytes = .ok framed) ↔ bytes.length ≤ 918744) ∧
      ∀ framed, frame bytes = .ok framed →
        (∀ position rest levels, readFrame ⟨position, framed ++ rest, levels⟩ =
          .ok bytes ⟨position + framed.length, rest, levels⟩) ∧
        ∀ other otherFramed, frame other = .ok otherFramed → framed <+: otherFramed →
          otherFramed = framed ∧ other = bytes := by
  refine ⟨⟨?_, exists_frame⟩, fun framed written => ⟨takes_readFrame written, ?_⟩⟩
  · rintro ⟨framed, written⟩
    obtain ⟨front, encoded, _⟩ := frame_eq_ok.mp written
    exact length_le_of_encode encoded
  · rintro other otherFramed otherWritten ⟨more, continued⟩
    have spelled : framed ++ more = otherFramed ++ [] := by
      rw [continued, List.append_nil]
    obtain ⟨strings, noMore⟩ := frame_append_inj written otherWritten spelled
    rw [← continued, noMore, List.append_nil]
    exact ⟨rfl, strings.symm⟩

/-- The shortest strings whose length takes two octets and three, and one octet too many. -/
theorem readFrame_frame_boundaries :
    (∀ rest, readFrame ⟨0, [193, 0] ++ List.replicate 193 7 ++ rest, 64⟩ =
        .ok (List.replicate 193 7) ⟨195, rest, 64⟩) ∧
      (∀ rest, readFrame ⟨0, [241, 0, 0] ++ List.replicate 12481 7 ++ rest, 64⟩ =
        .ok (List.replicate 12481 7) ⟨12484, rest, 64⟩) ∧
      ¬ ∃ framed, frame (List.replicate 918745 7) = .ok framed := by
  have framed {count : Nat} {front : Bytes} (encoded : encode count = .ok front) :
      frame (List.replicate count 7) = .ok (front ++ List.replicate count 7) := by
    rw [frame_eq_ok, List.length_replicate]
    exact ⟨front, encoded, rfl⟩
  have size (front : Bytes) (count : Nat) :
      0 + (front ++ List.replicate count 7).length = front.length + count := by
    rw [Nat.zero_add, List.length_append, List.length_replicate]
  refine ⟨fun rest => ?_, fun rest => ?_, fun exceeds => ?_⟩
  · have taken := ((readFrame_frame _).2 _ (framed (rfl : encode 193 = _))).1 0 rest 64
    rwa [size] at taken
  · have taken := ((readFrame_frame _).2 _ (framed (rfl : encode 12481 = _))).1 0 rest 64
    rwa [size] at taken
  · have bound := (readFrame_frame _).1.mp exceeds
    rw [List.length_replicate] at bound
    omega

end Length

/-! ## Headers -/

namespace Header

/-- What a code has in the first octet: zero stands for a code of its own octet. -/
def half (code : Nat) : Nat := if code < 16 then code else 0

def extension (code : Nat) : Bytes := if code < 16 then [] else [UInt8.ofNat code]

theorem headerOf_eq (typeCode nth : Nat) :
    Field.headerOf typeCode nth =
      [UInt8.ofNat (half typeCode * 16 + half nth)] ++ (extension typeCode ++ extension nth) := by
  unfold Field.headerOf half extension
  split <;> split <;> simp

/-- A code from the half of the first octet, or from the octet behind. -/
def readCode (half : Nat) (fault : Nat → HeaderFault) : Read Nat :=
  if half = 0 then readExtended fault else pure half

theorem read_eq :
    read = Read.byte >>= fun first => readCode (first / 16) .typeCode >>= fun typeCode =>
      readCode (first % 16) .fieldCode >>= fun nth => pure (typeCode, nth) := by
  unfold read readCode
  refine congrArg (Read.byte >>= ·) (funext fun first => ?_)
  split <;> split <;> simp

private theorem takes_readCode {code : Nat} (positive : 0 < code) (bound : code < 256)
    (fault : Nat → HeaderFault) : Takes (readCode (half code) fault) (extension code) code := by
  unfold readCode half extension
  by_cases narrow : code < 16
  · rw [if_pos narrow, if_pos narrow, if_neg (by omega)]
    exact Takes.pure code
  · rw [if_neg narrow, if_neg narrow, if_pos rfl]
    have value : (UInt8.ofNat code).toNat = code := UInt8.toNat_ofNat_of_lt' bound
    refine (Takes.byte (UInt8.ofNat code)).bind_pure ?_
    rw [value, if_neg narrow]

theorem takes_read {typeCode nth : Nat} (typePositive : 0 < typeCode) (typeBound : typeCode < 256)
    (nthPositive : 0 < nth) (nthBound : nth < 256) :
    Takes read (Field.headerOf typeCode nth) (typeCode, nth) := by
  have small : ∀ code, half code < 16 := by
    intro code
    unfold half
    split <;> omega
  have typeSmall := small typeCode
  have nthSmall := small nth
  have first : (UInt8.ofNat (half typeCode * 16 + half nth)).toNat =
      half typeCode * 16 + half nth :=
    UInt8.toNat_ofNat_of_lt' (show _ < 256 by omega)
  have high : (half typeCode * 16 + half nth) / 16 = half typeCode := by omega
  have low : (half typeCode * 16 + half nth) % 16 = half nth := by omega
  rw [headerOf_eq, read_eq]
  apply (Takes.byte _).bind
  rw [first, high, low]
  apply (takes_readCode typePositive typeBound _).bind
  exact (takes_readCode nthPositive nthBound _).bind_pure rfl

/-- The field of a header is found if no other field has its codes. -/
theorem takes_readField {registry : Registry} {field : Field}
    (typePositive : 0 < field.typeCode) (nthPositive : 0 < field.nth) (written : field.header ≠ [])
    (found : registry.fieldAt? field.typeCode field.nth = some field) :
    Takes (readField registry) field.header field := by
  unfold Field.header at written ⊢
  by_cases fits : field.serialized ∧ field.nth < 256 ∧ field.typeCode < 256
  · rw [if_pos fits]
    apply (takes_read typePositive fits.2.2 nthPositive fits.2.1).bind_pure
    dsimp only
    rw [found]
  · rw [if_neg fits] at written
    exact absurd rfl written

end Header

end LedgerWire
