import LedgerWire.Proofs.RoundTrip
import LedgerWire.Proofs.WritingAgain

/-!
# Octets that stay

Octets that an encoding gave are given again when they are decoded and what is
decoded is encoded, as often as one likes.
-/

namespace LedgerWire.Codec

/-- What is left of the octets after they have been decoded and encoded again so
many times. -/
def recoded (context : Context) : (count : Nat) → String → Except Error String
  | 0, text => .ok text
  | count + 1, text => do
      let document ← decode context text
      let again ← encode context document
      recoded context count again

private theorem recoded_of_stable {context : Context} {text : String} {document : Json}
    (decoded : decode context text = .ok document) (again : encode context document = .ok text)
    (count : Nat) : recoded context count text = .ok text := by
  induction count with
  | zero =>
      rfl
  | succ count inductionHypothesis =>
      rw [recoded, decoded, Outcome.ok_bind, again, Outcome.ok_bind, inductionHypothesis]

theorem encode_normalForm {context : Context} (sound : context.Sound) {document : Json}
    (distinct : document.distinctKeys = true) {text : String}
    (encoded : encode context document = .ok text) :
    encode context (NormalForm.document context document) = .ok text := by
  obtain ⟨bytes, given, rfl⟩ := Outcome.bind_pure_eq_ok.mp encoded
  exact Outcome.bind_pure_eq_ok.mpr ⟨bytes, Object.encode_normalForm sound distinct given, rfl⟩

/-- What an accepted document is encoded as is decoded, and what is decoded is
encoded as the same. The identifier of a transaction stays with it. -/
theorem encode_decoded {document : Json} {text : String}
    (readable : Object.Readable Context.standard .object document)
    (shallow : Object.nesting Context.standard document ≤ Cursor.maxDepth)
    (encoded : encode Context.standard document = .ok text) :
    ∃ shown id, decode Context.standard text = .ok shown ∧
      encode Context.standard shown = .ok text ∧ transactionId text = .ok id ∧
      ∀ count, recoded Context.standard count text = .ok text ∧
        (recoded Context.standard count text >>= transactionId) = .ok id := by
  obtain ⟨entries, written, rfl, given, rfl⟩ := encode_eq_ok.mp encoded
  have decoded := decode_of_read
    (Object.read_document Context.standard_sound readable given shallow)
  have again := encode_normalForm Context.standard_sound readable.distinct encoded
  have identified : transactionId (Hex.encode (written.flatMap Segment.bytes)) =
      .ok (Signing.transactionId (written.flatMap Segment.bytes)) := by
    rw [transactionId, octets_encode]
    rfl
  refine ⟨_, _, decoded, again, identified, fun count => ?_⟩
  have stays := recoded_of_stable decoded again count
  exact ⟨stays, by rw [stays, Outcome.ok_bind, identified]⟩

/-- The octets of the payment stay. -/
theorem encode_decoded_payment :
    ∃ shown id, decode Context.standard paymentText = .ok shown ∧
      encode Context.standard shown = .ok paymentText ∧ transactionId paymentText = .ok id ∧
      ∀ count, recoded Context.standard count paymentText = .ok paymentText ∧
        (recoded Context.standard count paymentText >>= transactionId) = .ok id :=
  encode_decoded payment_readable payment_shallow encode_payment

end LedgerWire.Codec
