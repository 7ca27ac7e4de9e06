import LedgerWire.Proofs.ReadingBack

/-!
# Whole documents

The octets of a document are not followed by an end marker, and their fields are
read up to the end of the octets, whatever name the marker has.
-/

namespace LedgerWire.Object

variable {context : Context}

theorem read_start (bytes : Bytes) :
    read context (Cursor.start bytes) =
      (readFields context (readFieldValueAt context Cursor.maxDepth) "ObjectEndMarker" bytes.length
        >>= fun entries => pure (Json.ofEntries entries)) ⟨0, bytes, Cursor.maxDepth⟩ :=
  rfl

/-- At the end of the octets no further field is read. -/
theorem readFields_end (readValue : Field → Read Json) (marker : String)
    (fuel position room : Nat) :
    readFields context readValue marker fuel ⟨position, [], room⟩ =
      .ok [] ⟨position, [], room⟩ := by
  cases fuel with
  | zero =>
      rfl
  | succ fuel =>
      have seen : Read.isEnd ⟨position, [], room⟩ = .ok true ⟨position, [], room⟩ := rfl
      rw [readFields_succ, Read.bind_of_ok seen, if_pos rfl]
      rfl

theorem encode_eq_ok {signingOnly : Bool} {document : Json} {bytes : Bytes} :
    encode context signingOnly document = .ok bytes ↔
      ∃ entries written, document = .object entries ∧
        segmentsOf context signingOnly entries = .ok written ∧
        bytes = written.flatMap Segment.bytes :=
  objectBytes_eq_ok

/-- Every field takes an octet at least. -/
theorem length_segmentsOf_le {signingOnly : Bool} {entries : List (String × Json)}
    {written : List Segment} (given : segmentsOf context signingOnly entries = .ok written) :
    written.length ≤ (written.flatMap Segment.bytes).length := by
  refine length_le_bytes fun one member => ?_
  obtain ⟨part, _, segmented⟩ :=
    Outcome.exists_of_mem_right (segments_eq_ok.mp given).2 member
  obtain ⟨headed, same, _⟩ := segment_eq_ok.mp segmented
  rwa [same]

/-! ## Documents without forged ends -/

/-- What is asked of a document so that its fields are told apart: no object
below it has an entry that is written as its own end, and each hop has a part. -/
structure Delimited (context : Context) (document : Json) : Prop where
  distinct : document.distinctKeys = true
  unmarked : ((parts context .object document).all fun part =>
    everywhere context unmarked part.1.kind part.2) = true
  stepped : everywhere context stepped .object document = true

theorem Delimited.part {document : Json} (delimited : Delimited context document)
    {part : Field × Json} (member : part ∈ parts context .object document) :
    Readable context part.1.kind part.2 where
  distinct := distinctKeys_of_mem_parts delimited.distinct member
  unmarked := List.all_eq_true.mp delimited.unmarked part member
  stepped := ((everywhere_iff context).mp delimited.stepped).2 part member

theorem Readable.delimited {document : Json} (readable : Readable context .object document) :
    Delimited context document where
  distinct := readable.distinct
  unmarked := List.all_eq_true.mpr ((everywhere_iff context).mp readable.unmarked).2
  stepped := readable.stepped

section Reading

variable (sound : context.Sound) {entries : List (String × Json)}
  (delimited : Delimited context (.object entries)) {marker : String}
  (unmarked : ∀ part ∈ parts context .object (.object entries), part.1.name ≠ marker)
  {written : List Segment} (given : segmentsOf context false entries = .ok written)

include sound delimited unmarked given

/-- The fields are read in the order in which they are written. -/
theorem runs_document (room fuel : Nat) :
    Runs room (readFields context (readFieldValueAt context room) marker (written.length + fuel))
      (written.flatMap Segment.bytes)
      ((shownEntries context entries).append <$>
        readFields context (readFieldValueAt context room) marker fuel)
      (nesting context (.object entries)) := by
  have lines := readsSegments_object sound unmarked (fun part member => delimited.part member)
    (fun part _ => readsBack sound part.1.kind part.2) given room
  have runs := runs_readFields lines fuel
  rwa [greatest_perm ((orderedParts_perm context entries).map _)] at runs

/-- With enough levels the fields are read to the last octet. -/
theorem readFields_document {room : Nat} (fits : nesting context (.object entries) ≤ room) :
    readFields context (readFieldValueAt context room) marker (written.flatMap Segment.bytes).length
        ⟨0, written.flatMap Segment.bytes, room⟩ =
      .ok (shownEntries context entries) ⟨(written.flatMap Segment.bytes).length, [], room⟩ := by
  obtain ⟨fuel, enough⟩ := Nat.exists_eq_add_of_le (length_segmentsOf_le given)
  have accepted := (runs_document sound delimited unmarked given room fuel).accepts fits 0 []
  rw [List.append_nil, Nat.zero_add, ← enough] at accepted
  rw [accepted]
  change EStateM.map _ _ _ = _
  rw [EStateM.map, readFields_end]
  exact congrArg (EStateM.Result.ok · _) (List.append_nil _)

/-- With too few levels they are refused. -/
theorem readFields_document_deep {room : Nat} (deep : room < nesting context (.object entries)) :
    ∃ after,
      readFields context (readFieldValueAt context room) marker
          (written.flatMap Segment.bytes).length ⟨0, written.flatMap Segment.bytes, room⟩ =
        .error (.nestingTooDeep Cursor.maxDepth) after := by
  obtain ⟨fuel, enough⟩ := Nat.exists_eq_add_of_le (length_segmentsOf_le given)
  have refused := (runs_document sound delimited unmarked given room fuel).refuses deep 0 []
  rwa [List.append_nil, ← enough] at refused

end Reading

end LedgerWire.Object
