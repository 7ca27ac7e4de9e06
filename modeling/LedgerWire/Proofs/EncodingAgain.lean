import LedgerWire.Proofs.RestoredDocuments
import LedgerWire.Proofs.RoundTrip

/-!
# Encoding what was decoded

What a document that was decoded is encoded as is decoded as the normal form of the
document. This is the document itself if it is restored, and else it is not encoded
or it is decoded as another.
-/

namespace LedgerWire.Codec

theorem shown_of_decode {text : String} {shown : Json}
    (decoded : decode Context.standard text = .ok shown) :
    Object.Shown Context.standard (Cursor.maxDepth + 1) .object shown := by
  obtain ⟨bytes, _, read⟩ := Outcome.bind_eq_ok.mp decoded
  exact Object.shown_of_decode Registry.bundled_distinct Object.bundled_marked read

/-- Whatever a document that was decoded is encoded as is decoded as its normal form. -/
theorem decode_of_encode_decoded {text again : String} {shown : Json}
    (decoded : decode Context.standard text = .ok shown)
    (encoded : encode Context.standard shown = .ok again) :
    decode Context.standard again = .ok (NormalForm.document Context.standard shown) := by
  obtain ⟨readable, room⟩ :=
    Object.readable_of_shown Context.standard_sound (shown_of_decode decoded)
  rw [Object.levels_object] at room
  obtain ⟨entries, written, rfl, segmented, rfl⟩ := encode_eq_ok.mp encoded
  exact decode_of_read (Object.read_document Context.standard_sound readable segmented
    (Nat.le_of_succ_le_succ room))

/-- A document that was decoded, for whose octets lengths can be written, is encoded and
then decoded as itself just if its amounts may be given, the items of its arrays are
objects, and no change of validators has an account but the zero account. -/
theorem decode_encode_of_decode_iff {text : String} {shown : Json}
    (decoded : decode Context.standard text = .ok shown)
    (lengths : Object.everywhere Context.standard Object.measured .object shown = true) :
    (∃ again, encode Context.standard shown = .ok again ∧
        decode Context.standard again = .ok shown) ↔
      Object.everywhere Context.standard (Object.rewritable Context.standard) .object shown =
        true := by
  rw [Object.restored_document_iff Context.standard_sound (shown_of_decode decoded) lengths]
  constructor
  · rintro ⟨again, encoded, same⟩
    have normal := decode_of_encode_decoded decoded encoded
    obtain ⟨octets, written, _⟩ := Outcome.bind_pure_eq_ok.mp encoded
    exact ⟨Except.ok.inj (normal.symm.trans same), octets, written⟩
  · rintro ⟨same, octets, written⟩
    have encoded : encode Context.standard shown = .ok (Hex.encode octets) :=
      Outcome.bind_pure_eq_ok.mpr ⟨octets, written, rfl⟩
    have back := decode_of_encode_decoded decoded encoded
    rw [same] at back
    exact ⟨Hex.encode octets, encoded, back⟩

def memo : Json :=
  .object [("Memos", .array [.object [("Memo", .object [("MemoData", .string "AB")])]])]

/-- A memo that was decoded is encoded and decoded as itself. -/
theorem decode_encode_of_decode_memo :
    decode Context.standard "F9EA7D01ABE1F1" = .ok memo ∧
      Object.everywhere Context.standard Object.measured .object memo = true ∧
      ∃ again, encode Context.standard memo = .ok again ∧
        decode Context.standard again = .ok memo := by
  have decoded : decode Context.standard "F9EA7D01ABE1F1" = .ok memo := rfl
  have lengths : Object.everywhere Context.standard Object.measured .object memo = true := rfl
  have rewritten : Object.everywhere Context.standard (Object.rewritable Context.standard)
      .object memo = true := rfl
  exact ⟨decoded, lengths, (decode_encode_of_decode_iff decoded lengths).mpr rewritten⟩

/-- A validator that a change of validators has as its account. -/
def validator : AccountId :=
  ⟨[0xDD, 0x76, 0x48, 0x3F, 0xAC, 0xDE, 0xE2, 0x6E, 0x60, 0xD8, 0xA5, 0x86, 0xBB, 0x58, 0xD0, 0x9F,
    0x27, 0x04, 0x5C, 0x46], rfl⟩

/-- A negative number of drops and an item that is no object are decoded, and they are
refused when they are encoded. The account of a change of validators is not kept. -/
theorem decoded_not_restored :
    (∃ shown, decode Context.standard "680000000000000001" = .ok shown ∧
      ∀ again, encode Context.standard shown ≠ .ok again) ∧
    (∃ shown, decode Context.standard "F92200000001F1" = .ok shown ∧
      ∀ again, encode Context.standard shown ≠ .ok again) ∧
    ∃ shown,
      decode Context.standard "1200668114DD76483FACDEE26E60D8A586BB58D09F27045C46" = .ok shown ∧
      ¬ ∃ again, encode Context.standard shown = .ok again ∧
        decode Context.standard again = .ok shown := by
  have negative : decode Context.standard "680000000000000001" =
      .ok (.object [("Fee", .string "-1")]) := rfl
  have flags : decode Context.standard "F92200000001F1" =
      .ok (.object [("Memos", .array [.object [("Flags", Json.ofNat 1)]])]) := rfl
  have change : decode Context.standard
        "1200668114DD76483FACDEE26E60D8A586BB58D09F27045C46" =
      .ok (.object [("Account", Account.toJson CheckedText.base58 validator),
        ("TransactionType", .string "UNLModify")]) := rfl
  refine ⟨⟨_, negative, fun again encoded => ?_⟩, ⟨_, flags, fun again encoded => ?_⟩,
    _, change, ?_⟩
  · have refused : (encode Context.standard (.object [("Fee", .string "-1")])).toOption = none :=
      rfl
    rw [encoded] at refused
    cases refused
  · have refused : (encode Context.standard (.object
        [("Memos", .array [.object [("Flags", Json.ofNat 1)]])])).toOption = none := rfl
    rw [encoded] at refused
    cases refused
  · rintro ⟨again, encoded, same⟩
    have normal := decode_of_encode_decoded change encoded
    have shown : Account.toJson CheckedText.base58 validator =
        Account.toJson CheckedText.base58 (Hash.zero 20) :=
      Object.account_of_normal Context.standard_sound (shown_of_decode change) rfl
        (Except.ok.inj (normal.symm.trans same)) rfl
    exact absurd (Account.eq_of_toJson_eq CheckedText.base58_distinctive shown) (by decide)

end LedgerWire.Codec
