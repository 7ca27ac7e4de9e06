import LedgerWire.Proofs.RoundTrip

/-!
# The octets bind the document

Two documents with the same octets have the same normal form, however deep they
nest, if none of them has a forged end. With a hop without a part, or an entry
written as the end of its object, the octets of one field can be those of other
fields as well.
-/

namespace LedgerWire

namespace Object

variable {context : Context}

private theorem name_ne_empty (sound : context.Sound) {kind : FieldKind} {value : Json}
    {part : Field × Json} (member : part ∈ parts context kind value) : part.1.name ≠ "" :=
  sound.registry.nonempty (mem_fields_of_mem_parts member)

/-- Delimited documents are read as they are shown. With as many levels as both
take, the reader cannot show two of them in the same octets. -/
theorem shownEntries_eq_of_bytes (sound : context.Sound) {left right : List (String × Json)}
    (leftDelimited : Delimited context (.object left))
    (rightDelimited : Delimited context (.object right)) {leftWritten rightWritten : List Segment}
    (leftGiven : segmentsOf context false left = .ok leftWritten)
    (rightGiven : segmentsOf context false right = .ok rightWritten)
    (same : leftWritten.flatMap Segment.bytes = rightWritten.flatMap Segment.bytes) :
    shownEntries context left = shownEntries context right := by
  let room := max (nesting context (.object left)) (nesting context (.object right))
  have leftRead := readFields_document sound leftDelimited
    (fun part member => name_ne_empty sound member) leftGiven
    (show nesting context (.object left) ≤ room from Nat.le_max_left _ _)
  have rightRead := readFields_document sound rightDelimited
    (fun part member => name_ne_empty sound member) rightGiven
    (show nesting context (.object right) ≤ room from Nat.le_max_right _ _)
  rw [same, rightRead] at leftRead
  exact (EStateM.Result.ok.inj leftRead).1.symm

end Object

namespace Codec

/-- Accepted documents with the same octets have the same normal form. No object
below them has an entry that is written as its own end, and no hop is without a
part. -/
theorem document_eq_of_encode_eq {left right : Json} {text : String}
    (leftDelimited : Object.Delimited Context.standard left)
    (rightDelimited : Object.Delimited Context.standard right)
    (leftEncoded : encode Context.standard left = .ok text)
    (rightEncoded : encode Context.standard right = .ok text) :
    NormalForm.document Context.standard left = NormalForm.document Context.standard right := by
  obtain ⟨leftEntries, leftWritten, rfl, leftGiven, rfl⟩ := encode_eq_ok.mp leftEncoded
  obtain ⟨rightEntries, rightWritten, rfl, rightGiven, sameText⟩ := encode_eq_ok.mp rightEncoded
  have same : leftWritten.flatMap Segment.bytes = rightWritten.flatMap Segment.bytes := by
    have decoded := Hex.decode_encode (leftWritten.flatMap Segment.bytes)
    rw [sameText, Hex.decode_encode] at decoded
    exact (Except.ok.inj decoded).symm
  have shown := Object.shownEntries_eq_of_bytes Context.standard_sound leftDelimited rightDelimited
    leftGiven rightGiven same
  obtain ⟨leftResult, leftExpands⟩ := (Object.segments_eq_ok.mp leftGiven).1
  obtain ⟨rightResult, rightExpands⟩ := (Object.segments_eq_ok.mp rightGiven).1
  have leftDistinct := (Json.distinctKeys_object.mp leftDelimited.distinct).1
  have rightDistinct := (Json.distinctKeys_object.mp rightDelimited.distinct).1
  calc NormalForm.document Context.standard (.object leftEntries)
      = Json.ofEntries (Object.shownEntries Context.standard leftEntries) :=
        (Object.ofEntries_shownEntries leftExpands leftDistinct).symm
    _ = Json.ofEntries (Object.shownEntries Context.standard rightEntries) := by rw [shown]
    _ = NormalForm.document Context.standard (.object rightEntries) :=
        Object.ofEntries_shownEntries rightExpands rightDistinct

/-- Digits in small and in capital letters spell one memo. -/
theorem document_eq_of_encode_eq_memo :
    NormalForm.document Context.standard
        (.object [("Memo", .object [("MemoData", .string "ab")])]) =
      NormalForm.document Context.standard
        (.object [("Memo", .object [("MemoData", .string "AB")]), ("Note", .null)]) := by
  have left : Object.Delimited Context.standard
      (.object [("Memo", .object [("MemoData", .string "ab")])]) :=
    ⟨by decide +kernel, by decide +kernel, by decide +kernel⟩
  have right : Object.Delimited Context.standard
      (.object [("Memo", .object [("MemoData", .string "AB")]), ("Note", .null)]) :=
    ⟨by decide +kernel, by decide +kernel, by decide +kernel⟩
  have leftEncoded : encode Context.standard
      (.object [("Memo", .object [("MemoData", .string "ab")])]) = .ok "EA7D01ABE1" :=
    Outcome.eq_ok_of_toOption (by decide +kernel)
  have rightEncoded : encode Context.standard
      (.object [("Memo", .object [("MemoData", .string "AB")]), ("Note", .null)]) =
        .ok "EA7D01ABE1" :=
    Outcome.eq_ok_of_toOption (by decide +kernel)
  exact document_eq_of_encode_eq left right leftEncoded rightEncoded

/-! ## Forged fields -/

/-- Two documents with the same octets and different contents. -/
def Confused (left right : Json) : Prop :=
  left.distinctKeys = true ∧ right.distinctKeys = true ∧
    (∃ text, encode Context.standard left = .ok text ∧
      encode Context.standard right = .ok text) ∧
    NormalForm.document Context.standard left ≠ NormalForm.document Context.standard right

/-- They are confused if a key tells their contents apart. -/
theorem confused_of_key (text key : String) {left right : Json}
    (distinct : (left.distinctKeys && right.distinctKeys) = true)
    (leftEncoded : (encode Context.standard left).toOption = some text)
    (rightEncoded : (encode Context.standard right).toOption = some text)
    (apart : ((NormalForm.document Context.standard left).get? key).isSome ≠
      ((NormalForm.document Context.standard right).get? key).isSome) : Confused left right := by
  rw [Bool.and_eq_true] at distinct
  exact ⟨distinct.1, distinct.2, ⟨text, Outcome.eq_ok_of_toOption leftEncoded,
    Outcome.eq_ok_of_toOption rightEncoded⟩, fun same => apart (by rw [same])⟩

/-- The field `Indexes` is forged by hops without parts, and the field `SignerEntry`
by an entry written as the end of its object. -/
theorem confused_by_forged_ends :
    Confused
      (.object [("Paths", .array [.array
        ([.object [], .object [("account", .string "13200102030405060708090A0B0C0D0E0F101112")]] ++
          List.replicate 13 (.object []))])])
      (.object [("Indexes", .array
          [.string "0102030405060708090A0B0C0D0E0F1011120000000000000000000000000000"]),
        ("Paths", .array [])]) ∧
    Confused
      (.object [("Memo", .object [("ObjectEndMarker", .object [("SignerEntry", .object [])])])])
      (.object [("Memo", .object []),
        ("SignerEntry", .object [("ObjectEndMarker", .object [])])]) := by
  constructor
  · refine confused_of_key
      "0112000113200102030405060708090A0B0C0D0E0F1011120000000000000000000000000000" "Indexes"
      ?_ ?_ ?_ ?_ <;> decide +kernel
  · refine confused_of_key "EAE1EBE1E1E1" "SignerEntry" ?_ ?_ ?_ ?_ <;> decide +kernel

end Codec

end LedgerWire
