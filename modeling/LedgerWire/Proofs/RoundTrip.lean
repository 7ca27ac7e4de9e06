import LedgerWire.Codec
import LedgerWire.Proofs.Documents

/-!
# Decoding what was encoded

A document that nests no deeper than the reader follows is decoded as its normal
form, which takes all octets. A document that nests deeper is refused.
-/

namespace LedgerWire

namespace Object

variable {context : Context}

section Reading

variable (sound : context.Sound) {entries : List (String × Json)}
  (readable : Readable context .object (.object entries)) {written : List Segment}
  (given : segmentsOf context false entries = .ok written)

include sound readable given

/-- The entries that are read make the normal form, and no octet is left. -/
theorem read_document (shallow : nesting context (.object entries) ≤ Cursor.maxDepth) :
    read context (Cursor.start (written.flatMap Segment.bytes)) =
      .ok (NormalForm.document context (.object entries))
        ⟨(written.flatMap Segment.bytes).length, [], Cursor.maxDepth⟩ := by
  obtain ⟨result, expands⟩ := (segments_eq_ok.mp given).1
  have distinct := (Json.distinctKeys_object.mp readable.distinct).1
  have noMark := ((everywhere_iff context).mp readable.unmarked).1
  have fields := readFields_document sound readable.delimited
    (fun part member => name_ne_of_unmarked noMark member) given shallow
  rw [read_start, Read.bind_of_ok fields, ofEntries_shownEntries expands distinct]
  rfl

private theorem read_document_deep (deep : Cursor.maxDepth < nesting context (.object entries)) :
    ∃ after, read context (Cursor.start (written.flatMap Segment.bytes)) =
      .error (.nestingTooDeep Cursor.maxDepth) after := by
  have noMark := ((everywhere_iff context).mp readable.unmarked).1
  obtain ⟨after, refused⟩ := readFields_document_deep sound readable.delimited
    (fun part member => name_ne_of_unmarked noMark member) given deep
  refine ⟨after, ?_⟩
  rw [read_start, Read.bind_of_error refused]

end Reading

/-- The names that are read are those of the fields that were written. -/
theorem keys_shownEntries {entries : List (String × Json)}
    {written : List Segment} (given : segmentsOf context false entries = .ok written) :
    (shownEntries context entries).map (·.1) = written.map (·.field.name) := by
  rw [shownEntries, List.map_map]
  refine List.forall₂_eq_eq_eq ▸ ?_
  rw [List.forall₂_map_left_iff, List.forall₂_map_right_iff]
  exact (segments_eq_ok.mp given).2.imp fun part one segmented =>
    congrArg Field.name (segment_eq_ok.mp segmented).2.1.symm

end Object

namespace Codec

variable {context : Context}

theorem encode_eq_ok {document : Json} {text : String} :
    encode context document = .ok text ↔
      ∃ entries written, document = .object entries ∧
        Object.segmentsOf context false entries = .ok written ∧
        text = Hex.encode (written.flatMap Segment.bytes) := by
  constructor
  · intro encoded
    obtain ⟨bytes, given, rfl⟩ := Outcome.bind_pure_eq_ok.mp encoded
    obtain ⟨entries, written, rfl, segmented, rfl⟩ := Object.encode_eq_ok.mp given
    exact ⟨entries, written, rfl, segmented, rfl⟩
  · rintro ⟨entries, written, rfl, segmented, rfl⟩
    exact Outcome.bind_pure_eq_ok.mpr
      ⟨_, Object.encode_eq_ok.mpr ⟨entries, written, rfl, segmented, rfl⟩, rfl⟩

theorem octets_encode (bytes : Bytes) : octets (Hex.encode bytes) = .ok bytes := by
  rw [octets, Hex.decode_encode]
  rfl

theorem decode_of_read {bytes : Bytes} {shown : Json} {after : Cursor}
    (given : Object.read context (Cursor.start bytes) = .ok shown after) :
    decode context (Hex.encode bytes) = .ok shown := by
  rw [decode, octets_encode, Outcome.ok_bind, Object.decode, Read.ofBytes, given]

private theorem decode_of_refused {bytes : Bytes} {fault : Error} {after : Cursor}
    (refused : Object.read context (Cursor.start bytes) = .error fault after) :
    decode context (Hex.encode bytes) = .error fault := by
  rw [decode, octets_encode, Outcome.ok_bind, Object.decode, Read.ofBytes, refused]

/-- An accepted document that nests at most as deep as the reader follows, with
no entry written as its object's own end and no hop without a part, is decoded
as its normal form, and the reader stands behind the last octet. -/
theorem normalForm_of_encode {document : Json} {text : String}
    (readable : Object.Readable Context.standard .object document)
    (shallow : Object.nesting Context.standard document ≤ Cursor.maxDepth)
    (encoded : encode Context.standard document = .ok text) :
    ∃ bytes, octets text = .ok bytes ∧
      Object.read Context.standard (Cursor.start bytes) =
        .ok (NormalForm.document Context.standard document)
          ⟨bytes.length, [], Cursor.maxDepth⟩ ∧
      decode Context.standard text = .ok (NormalForm.document Context.standard document) := by
  obtain ⟨entries, written, rfl, given, rfl⟩ := encode_eq_ok.mp encoded
  have taken := Object.read_document Context.standard_sound readable given shallow
  exact ⟨_, octets_encode _, taken, decode_of_read taken⟩

/-- A payment with a tagged address, an unknown entry, and values in other
spellings than their normal forms. -/
def payment : Json :=
  .object
    [("Account", .string "XVbLX9oZskZjyu4wTw86a1mPzyjiPGLPVLZZXrm7zGWJGLE"),
      ("Amount", .object
        [("currency", .string "USD"),
          ("issuer", .string "B5F762798A53D543A014CAF8B297CFF8F2F937E8"),
          ("value", .string "01.50")]),
      ("Fee", .string "0012"),
      ("Memos", .array [.object [("Memo", .object [("MemoData", .string "ab")])]]),
      ("Note", .string "not written"),
      ("Paths", .array [.array [.object [("currency", .string "USD")]]]),
      ("TransactionType", .string "Payment")]

def paymentText : String :=
  "120000230000000C61D485543DF729C0000000000000000000000000005553440000000000B5F762798A53D543A0" ++
    "14CAF8B297CFF8F2F937E868400000000000000C8114DD76483FACDEE26E60D8A586BB58D09F27045C46F9EA7D" ++
    "01ABE1F1011210000000000000000000000000555344000000000000"

/-- The checks on the payment share one evaluation, since each decodes the address. -/
theorem payment_checked :
    payment.distinctKeys = true ∧
      Object.everywhere Context.standard Object.unmarked .object payment = true ∧
      Object.everywhere Context.standard Object.stepped .object payment = true ∧
      Object.nesting Context.standard payment ≤ Cursor.maxDepth ∧
      (encode Context.standard payment).toOption = some paymentText := by
  decide +kernel

theorem payment_readable : Object.Readable Context.standard .object payment where
  distinct := payment_checked.1
  unmarked := payment_checked.2.1
  stepped := payment_checked.2.2.1

theorem payment_shallow : Object.nesting Context.standard payment ≤ Cursor.maxDepth :=
  payment_checked.2.2.2.1

theorem encode_payment : encode Context.standard payment = .ok paymentText :=
  Outcome.eq_ok_of_toOption payment_checked.2.2.2.2

/-- What the payment is decoded as: the tag is an entry of its own, the note is left out,
and each value has its normal form. -/
def paymentShown : Json :=
  .object
    [("Account", .string "rMBzp8CgpE441cp5PVyA9rpVV7oT8hP3ys"),
      ("Amount", .object
        [("currency", .string "USD"), ("issuer", .string "rHb9CJAWyB4rj91VRWn96DkukG4bwdtyTh"),
          ("value", .string "1.5")]),
      ("Fee", .string "12"),
      ("Memos", .array [.object [("Memo", .object [("MemoData", .string "AB")])]]),
      ("Paths", .array [.array [.object [("currency", .string "USD")]]]),
      ("SourceTag", Json.ofNat 12),
      ("TransactionType", .string "Payment")]

/-- The payment is decoded as its normal form. -/
theorem normalForm_of_encode_payment :
    ∃ bytes, octets paymentText = .ok bytes ∧
      Object.read Context.standard (Cursor.start bytes) =
        .ok (NormalForm.document Context.standard payment) ⟨bytes.length, [], Cursor.maxDepth⟩ ∧
      decode Context.standard paymentText = .ok (NormalForm.document Context.standard payment) ∧
      NormalForm.document Context.standard payment = paymentShown := by
  have shown : (decode Context.standard paymentText).toOption = some paymentShown := by
    decide +kernel
  obtain ⟨bytes, whole, read, decoded⟩ :=
    normalForm_of_encode payment_readable payment_shallow encode_payment
  rw [decoded] at shown
  exact ⟨bytes, whole, read, decoded, Option.some.inj shown⟩

/-! ## Every accepted document -/

/-- An accepted document without forged ends is decoded under the names of the
fields that were written if it nests no deeper than the reader follows, and is
refused for its depth if it does. -/
theorem names_or_nestingTooDeep {document : Json} {text : String}
    (readable : Object.Readable Context.standard .object document)
    (encoded : encode Context.standard document = .ok text) :
    ∃ entries written, document = .object entries ∧
      Object.segmentsOf Context.standard false entries = .ok written ∧
      (Object.nesting Context.standard document ≤ Cursor.maxDepth →
        ∃ shown, decode Context.standard text = .ok (.object shown) ∧
          (shown.map (·.1)).Perm (written.map (·.field.name))) ∧
      (Cursor.maxDepth < Object.nesting Context.standard document →
        decode Context.standard text = .error (.nestingTooDeep Cursor.maxDepth)) := by
  obtain ⟨entries, written, rfl, given, rfl⟩ := encode_eq_ok.mp encoded
  refine ⟨entries, written, rfl, given, fun shallow => ?_, fun deep => ?_⟩
  · have taken := Object.read_document Context.standard_sound readable given shallow
    obtain ⟨result, expands⟩ := (Object.segments_eq_ok.mp given).1
    have distinct := (Json.distinctKeys_object.mp readable.distinct).1
    have normal : NormalForm.document Context.standard (.object entries) =
        .object ((Object.shownEntries Context.standard entries).insertionSort
          Json.KeyNotAbove) := by
      rw [← Json.ofEntries_eq (Object.nodup_keys_shownEntries expands distinct)]
      exact (Object.ofEntries_shownEntries expands distinct).symm
    refine ⟨_, normal ▸ decode_of_read taken, ?_⟩
    rw [← Object.keys_shownEntries given]
    exact (List.perm_insertionSort Json.KeyNotAbove _).map _
  · obtain ⟨after, refused⟩ :=
      Object.read_document_deep Context.standard_sound readable given deep
    exact decode_of_refused refused

/-- The payment is decoded under the names of its fields. -/
theorem names_of_payment :
    ∃ entries written shown, payment = .object entries ∧
      Object.segmentsOf Context.standard false entries = .ok written ∧
      decode Context.standard paymentText = .ok (.object shown) ∧
      (shown.map (·.1)).Perm (written.map (·.field.name)) := by
  obtain ⟨entries, written, same, given, shallow, _⟩ :=
    names_or_nestingTooDeep payment_readable encode_payment
  obtain ⟨shown, decoded, names⟩ := shallow payment_shallow
  exact ⟨entries, written, shown, same, given, decoded, names⟩

/-- Memos that are nested in one another so many times. -/
def memos : Nat → Json
  | 0 => .object []
  | count + 1 => .object [("Memo", memos count)]

/-- Memos nested one level deeper than the reader follows are encoded, and the
octets are refused. -/
theorem encode_memos :
    ∃ text, encode Context.standard (memos 65) = .ok text ∧
      decode Context.standard text = .error (.nestingTooDeep 64) := by
  have encoded : encode Context.standard (memos 65) =
      .ok (Hex.encode (List.replicate 65 0xEA ++ List.replicate 65 0xE1)) :=
    Outcome.eq_ok_of_toOption (by decide +kernel)
  have readable : Object.Readable Context.standard .object (memos 65) :=
    ⟨by decide +kernel, by decide +kernel, by decide +kernel⟩
  have deep : Cursor.maxDepth < Object.nesting Context.standard (memos 65) := by
    decide +kernel
  refine ⟨_, encoded, ?_⟩
  obtain ⟨entries, written, same, given, shown⟩ := encode_eq_ok.mp encoded
  rw [same] at readable deep
  obtain ⟨after, refused⟩ := Object.read_document_deep Context.standard_sound readable given deep
  rw [shown]
  exact decode_of_refused refused

/-- What decoding gives of a document may be an error, because of the depth or of
a hop without a part, and it may lack a field, because of an entry that is written
as the end. -/
theorem encoded_refused_or_cut_short :
    (∃ text, encode Context.standard (memos 65) = .ok text ∧
      decode Context.standard text = .error (.nestingTooDeep 64)) ∧
    (∃ text, encode Context.standard (.object
        [("Flags", Json.ofNat 1), ("Paths", .array [.array [.object []]])]) = .ok text ∧
      ∀ shown, decode Context.standard text ≠ .ok shown) ∧
    ∃ text shown, encode Context.standard (.object
        [("ObjectEndMarker", .object []), ("Sequence", Json.ofNat 1)]) = .ok text ∧
      decode Context.standard text = .ok shown ∧ shown.get? "ObjectEndMarker" = none := by
  refine ⟨encode_memos, ⟨"220000000101120000", ?_, fun shown decoded => ?_⟩, ?_⟩
  · exact Outcome.eq_ok_of_toOption (by decide +kernel)
  · have refused : (decode Context.standard "220000000101120000").toOption.isNone = true := by
      decide +kernel
    rw [decoded] at refused
    cases refused
  · have cut : ((decode Context.standard "2400000001E1E1").toOption.any fun shown =>
        (shown.get? "ObjectEndMarker").isNone) = true := by
      decide +kernel
    obtain ⟨shown, decoded, absent⟩ := (Option.any_eq_true _ _).mp cut
    exact ⟨"2400000001E1E1", shown, Outcome.eq_ok_of_toOption (by decide +kernel),
      Outcome.eq_ok_of_toOption decoded, Option.isNone_iff_eq_none.mp absent⟩

end Codec

end LedgerWire
