import LedgerWire.Proofs.ReadingBack

/-!
# Writing the normal form

The normal form of what was written is written with the same octets. None of its
texts is taken for an extended address, its fields are in the same order, and its
account is omitted if that of the document was.
-/

namespace LedgerWire.Object

variable {context : Context}

/-! ## Entries that stay -/

theorem expandEntry_of_stays {writing : CheckedText} {entries : List (String × Json)}
    {entry : String × Json} (stays : Stays writing entry.2) :
    expandEntry writing entries entry = .ok [entry] := by
  unfold expandEntry
  split
  · rename_i key text
    rw [stays.2 text rfl]
  · rfl

theorem expand_of_stays {writing : CheckedText} {entries : List (String × Json)}
    (stays : ∀ entry ∈ entries, Stays writing entry.2) :
    expand writing entries = .ok entries := by
  have alone : entries.mapM (expandEntry writing entries) =
      .ok (entries.map fun entry => [entry]) := by
    rw [Outcome.mapM_eq_ok, List.forall₂_map_right_iff, List.forall₂_same]
    exact fun entry member => expandEntry_of_stays (stays entry member)
  rw [expand, alone, Outcome.ok_bind, Outcome.pure_eq_ok, ← List.flatMap_def]
  exact congrArg Except.ok (List.flatMap_singleton' entries)

/-! ## Single fields -/

/-- The normal form of a value that is written is written with the same octets. -/
def WrittenAgain (context : Context) (kind : FieldKind) (value : Json) : Prop :=
  value.distinctKeys = true →
    ∀ {field : Field}, field ∈ context.registry.fields → field.header ≠ [] → field.kind = kind →
      ∀ {bytes : Bytes}, fieldValueBytes context field value = .ok bytes →
        fieldValueBytes context field (NormalForm.value context kind value) = .ok bytes ∧
          Stays context.addresses (NormalForm.value context kind value)

private theorem writtenAgain_scalar (sound : context.Sound) (kind : ScalarKind) (value : Json) :
    WrittenAgain context (.scalar kind) value := by
  intro _ field _ _ isScalar bytes written
  obtain ⟨scalar, given, rfl⟩ := (fieldValueBytes_scalar isScalar).mp written
  have faithful := Scalar.faithful sound.addresses sound.registry.toNamed given
  rw [NormalForm.value_scalar]
  exact ⟨(fieldValueBytes_scalar isScalar).mpr ⟨_, faithful.again, scalar.bytes_settled⟩,
    faithful.stays⟩

private theorem stays_zeroAccount (sound : context.Sound) :
    Stays context.addresses (Account.toJson context.addresses (Hash.zero 20)) := by
  refine ⟨Json.noConfusion, fun text same => ?_⟩
  cases same
  exact Address.extended?_encodeClassic sound.addresses.toLawful (Hash.zero 20)

/-- What is shown of a field is written with the same octets. -/
theorem segment_again (sound : context.Sound) {field : Field}
    (member : field ∈ context.registry.fields) {value : Json} (distinct : value.distinctKeys = true)
    (again : WrittenAgain context field.kind value) {omitted : Bool} {written : Segment}
    (named : omitted = true → field.name = "Account")
    (segmented : segment (fieldValueBytes context) field value omitted = .ok written) :
    segment (fieldValueBytes context) field (shownAs context omitted field.kind value) omitted =
        .ok written ∧
      Stays context.addresses (shownAs context omitted field.kind value) := by
  have headed := (segment_eq_ok.mp segmented).1
  cases omitted with
  | true =>
      have account := sound.registry.account member (named rfl)
      have prefixed : field.lengthPrefixed = true := by
        rw [sound.registry.framed member headed, account]
        rfl
      exact ⟨(segment_omitted prefixed _ value).trans segmented, stays_zeroAccount sound⟩
  | false =>
      obtain ⟨bytes, valueWritten⟩ := value_of_segment segmented
      obtain ⟨rewritten, stays⟩ := again distinct member headed rfl valueWritten
      exact ⟨(segment_congr (rewritten.trans valueWritten.symm)).trans segmented, stays⟩

/-! ## Fields in order -/

/-- An ordinal has the number of a field in its lowest octet, so it tells both codes. -/
theorem eq_of_ordinal_eq (sound : context.Sound) {left right : Field}
    (leftMember : left ∈ context.registry.fields) (rightMember : right ∈ context.registry.fields)
    (leftHeaded : left.header ≠ []) (rightHeaded : right.header ≠ [])
    (same : left.ordinal = right.ordinal) : left = right := by
  have bounded : ∀ {field : Field}, field.header ≠ [] → field.nth < 256 := by
    intro field headed
    unfold Field.header at headed
    split at headed
    · rename_i fits
      exact fits.2.1
    · exact absurd rfl headed
  have leftBound := bounded leftHeaded
  have rightBound := bounded rightHeaded
  unfold Field.ordinal Field.ordinalOf at same
  have typeCode : left.typeCode = right.typeCode := by omega
  have nth : left.nth = right.nth := by omega
  have leftFound := sound.registry.located leftMember leftHeaded
  rw [typeCode, nth, sound.registry.located rightMember rightHeaded] at leftFound
  exact (Option.some.inj leftFound).symm

private theorem writtenField?_named {registry : Registry} {field : Field}
    (found : registry.field? field.name = some field) (serialized : field.serialized = true)
    {value : Json} (nonNull : value ≠ .null) :
    writtenField? registry false (field.name, value) = some field := by
  unfold writtenField?
  split
  · rename_i same
    exact absurd (congrArg Prod.snd same) nonNull
  · rename_i same
    cases same
    simp [found, serialized]

theorem mem_canonicalFields {registry : Registry} {entries : List (String × Json)} {field : Field}
    (found : registry.field? field.name = some field) (serialized : field.serialized = true)
    {value : Json} (nonNull : value ≠ .null) (member : (field.name, value) ∈ entries) :
    (field, value) ∈ canonicalFields registry false entries := by
  refine (canonicalFields_perm _ _ _).mem_iff.mpr (List.mem_filterMap.mpr ⟨_, member, ?_⟩)
  rw [writtenField?_named found serialized nonNull]
  rfl

/-- Fields that have their own names as keys are written with their values. -/
theorem writtenFields_named {registry : Registry} {items : List (Field × Json)}
    (known : ∀ part ∈ items, registry.field? part.1.name = some part.1 ∧
      part.1.serialized = true ∧ part.2 ≠ .null) :
    writtenFields registry false (items.map fun part => (part.1.name, part.2)) = items := by
  induction items with
  | nil =>
      rfl
  | cons part items inductionHypothesis =>
      obtain ⟨found, serialized, nonNull⟩ := known part List.mem_cons_self
      have others := inductionHypothesis fun other member =>
        known other (List.mem_cons_of_mem part member)
      have kept := writtenField?_named found serialized nonNull
      rw [writtenFields] at others
      rw [writtenFields, List.map_cons, List.filterMap_cons_some (by rw [kept]; rfl), others]

/-- Ascending fields with distinct ordinals are in the order in which they are written. -/
theorem canonicalFields_of_perm {registry : Registry} {signingOnly : Bool}
    {entries : List (String × Json)} {items : List (Field × Json)}
    (same : (writtenFields registry signingOnly entries).Perm items)
    (ascending : items.Pairwise NotAbove)
    (distinct : ∀ left ∈ items, ∀ right ∈ items, left.1.ordinal = right.1.ordinal → left = right) :
    canonicalFields registry signingOnly entries = items := by
  have order := (canonicalFields_perm registry signingOnly entries).trans same
  refine order.eq_of_pairwise (fun left right inLeft inRight below above => ?_)
    (canonicalFields_pairwise registry signingOnly entries) ascending
  exact distinct left (order.mem_iff.mp inLeft) right inRight (Nat.le_antisymm below above)

/-! ## Objects -/

/-- What a part of an object is shown as. -/
def shownPart (context : Context) (entries : List (String × Json)) (part : Field × Json) :
    Field × Json :=
  (part.1, shownAs context (NormalForm.omitsAccount context (.object entries) &&
    part.1.name == "Account") part.1.kind part.2)

/-- The fields of an object and what they are shown as, in the order in which they are written. -/
def shownParts (context : Context) (entries : List (String × Json)) : List (Field × Json) :=
  (orderedParts context entries).map (shownPart context entries)

private theorem shownEntries_eq (entries : List (String × Json)) :
    shownEntries context entries =
      (shownParts context entries).map fun part => (part.1.name, part.2) := by
  rw [shownEntries, shownParts, List.map_map]
  rfl

section Objects

variable (sound : context.Sound) {entries : List (String × Json)}
  (distinct : (Json.object entries).distinctKeys = true)
  (again : ∀ part ∈ parts context .object (.object entries),
    WrittenAgain context part.1.kind part.2)
  {written : List Segment}
  (given : segments context.registry context.addresses (fieldValueBytes context) false entries =
    .ok written)

include sound distinct again given

/-- What is shown of each field is written with the same octets. -/
theorem forall₂_shownParts :
    List.Forall₂ (fun part one =>
        segment (fieldValueBytes context) part.1 part.2
            (NormalForm.omitsAccount context (.object entries) && part.1.name == "Account") =
          .ok one ∧ Stays context.addresses part.2)
      (shownParts context entries) written := by
  rw [shownParts, List.forall₂_map_left_iff]
  refine Outcome.imp_of_mem_left (segments_eq_ok.mp given).2 fun part present one segmented => ?_
  have member := mem_parts_of_mem_ordered present
  refine segment_again sound (mem_fields_of_mem_parts member)
    (distinctKeys_of_mem_parts distinct member) (again part member) (fun omitted => ?_) segmented
  rw [Bool.and_eq_true, beq_iff_eq] at omitted
  exact omitted.2

/-- Equal ordinals mean one field, and of two parts with one field there is only one. -/
theorem canonicalFields_shown {shown : List (String × Json)}
    (same : shown.Perm (shownEntries context entries)) :
    canonicalFields context.registry false shown = shownParts context entries := by
  have related := forall₂_shownParts sound distinct again given
  have origin : ∀ part ∈ shownParts context entries, ∃ value,
      (part.1, value) ∈ parts context .object (.object entries) := by
    intro part member
    obtain ⟨source, sourceMember, rfl⟩ := List.mem_map.mp member
    exact ⟨source.2, mem_parts_of_mem_ordered sourceMember⟩
  have known : ∀ part ∈ shownParts context entries,
      context.registry.field? part.1.name = some part.1 ∧ part.1.serialized = true ∧
        part.2 ≠ .null := by
    intro part member
    obtain ⟨value, present⟩ := origin part member
    obtain ⟨_, found, serialized, _⟩ := mem_writtenFields present
    obtain ⟨one, _, _, stays⟩ := Outcome.exists_of_mem_left related member
    exact ⟨found, serialized, stays.1⟩
  refine canonicalFields_of_perm ?_ ?_ ?_
  · have kept := writtenFields_named known
    rw [← shownEntries_eq] at kept
    rw [← kept]
    exact same.filterMap _
  · have ascending := canonicalFields_pairwise context.registry false
      (expanded context.addresses entries)
    exact List.pairwise_map.mpr ascending
  · intro left leftMember right rightMember ordinals
    obtain ⟨one, _, leftWritten, _⟩ := Outcome.exists_of_mem_left related leftMember
    obtain ⟨other, _, rightWritten, _⟩ := Outcome.exists_of_mem_left related rightMember
    obtain ⟨_, leftPresent⟩ := origin left leftMember
    obtain ⟨_, rightPresent⟩ := origin right rightMember
    have leftField := mem_fields_of_mem_parts leftPresent
    have rightField := mem_fields_of_mem_parts rightPresent
    have fields : left.1 = right.1 := eq_of_ordinal_eq sound leftField rightField
      (segment_eq_ok.mp leftWritten).1 (segment_eq_ok.mp rightWritten).1 ordinals
    obtain ⟨result, expands⟩ := (segments_eq_ok.mp given).1
    have names := nodup_keys_shownEntries expands (Json.distinctKeys_object.mp distinct).1
    rw [shownEntries_eq, List.map_map] at names
    exact List.inj_on_of_nodup_map names leftMember rightMember (congrArg Field.name fields)

omit again in
/-- The normal form of a change of validators is one, and no other is. -/
theorem changesValidators_shown {shown : List (String × Json)}
    (same : shown.Perm (shownEntries context entries)) :
    changesValidators context.registry shown =
      changesValidators context.registry (expanded context.addresses entries) := by
  obtain ⟨field, found, serialized, isNamed⟩ := sound.registry.transactionType
  obtain ⟨_, named⟩ := Registry.mem_of_field? found
  obtain ⟨result, expands⟩ := (segments_eq_ok.mp given).1
  have keys := (Json.distinctKeys_object.mp distinct).1
  have shownKeys : (shown.map (·.1)).Nodup :=
    (same.map (·.1)).nodup_iff.mpr (nodup_keys_shownEntries expands keys)
  unfold changesValidators
  by_cases present : ∃ value, (field, value) ∈ orderedParts context entries
  · obtain ⟨value, member⟩ := present
    obtain ⟨one, _, segmented⟩ := Outcome.exists_of_mem_left (segments_eq_ok.mp given).2 member
    have inExpanded := (mem_writtenFields (mem_parts_of_mem_ordered member)).1
    have other : (field.name == "Account") = false := by
      rw [named]
      decide
    have inShown :
        (field.name, NormalForm.named context.registry .transactionType value) ∈ shown := by
      refine same.mem_iff.mpr (List.mem_map.mpr ⟨(field, value), member, ?_⟩)
      simp only [other, Bool.and_false, shownAs, isNamed, NormalForm.value_scalar]
      rfl
    simp only [other, Bool.and_false] at segmented
    obtain ⟨bytes, valueWritten⟩ := value_of_segment segmented
    obtain ⟨scalar, scalarRead, _⟩ := (fieldValueBytes_scalar isNamed).mp valueWritten
    obtain ⟨code, read, _⟩ := Outcome.bind_pure_eq_ok.mp scalarRead
    obtain ⟨name, toName, _, readAgain, _⟩ := EnumCode.named_of_ofJson sound.registry.toNamed read
    rw [toName] at inShown
    rw [named] at inShown inExpanded
    rw [lookup_of_mem shownKeys inShown,
      lookup_of_mem (nodup_keys_expanded expands keys) inExpanded]
    dsimp only
    rw [read, readAgain]
  · have shownNone : shown.lookup "TransactionType" = none := by
      refine List.lookup_eq_none_iff.mpr fun entry member => ?_
      obtain ⟨part, partMember, rfl⟩ := List.mem_map.mp (same.mem_iff.mp member)
      rw [bne_iff_ne]
      intro (isType : "TransactionType" = part.1.name)
      have known := field?_of_mem_parts (mem_parts_of_mem_ordered partMember)
      rw [← isType, found] at known
      exact present ⟨part.2, Option.some.inj known ▸ partMember⟩
    rw [shownNone]
    cases held : (expanded context.addresses entries).lookup "TransactionType" with
    | none =>
        rfl
    | some value =>
        have isNull : value = .null := by
          by_contra nonNull
          have member : (field.name, value) ∈ expanded context.addresses entries :=
            mem_of_lookup (named ▸ held)
          exact present ⟨value, mem_canonicalFields (named ▸ found) serialized nonNull member⟩
        rw [isNull]
        rfl

/-- The normal form of an object has the same segments. -/
theorem segments_again :
    ∃ shown, NormalForm.value context .object (.object entries) = .object shown ∧
      segments context.registry context.addresses (fieldValueBytes context) false shown =
        .ok written := by
  obtain ⟨result, expands⟩ := (segments_eq_ok.mp given).1
  have keys := (Json.distinctKeys_object.mp distinct).1
  have related := forall₂_shownParts sound distinct again given
  have same := List.perm_insertionSort Json.KeyNotAbove (shownEntries context entries)
  have stays : ∀ entry ∈ (shownEntries context entries).insertionSort Json.KeyNotAbove,
      Stays context.addresses entry.2 := by
    intro entry member
    have shownMember := same.mem_iff.mp member
    rw [shownEntries_eq] at shownMember
    obtain ⟨part, partMember, rfl⟩ := List.mem_map.mp shownMember
    obtain ⟨one, _, _, stays⟩ := Outcome.exists_of_mem_left related partMember
    exact stays
  have expandsAgain := expand_of_stays stays
  refine ⟨(shownEntries context entries).insertionSort Json.KeyNotAbove, ?_,
    segments_eq_ok.mpr ⟨⟨_, expandsAgain⟩, ?_⟩⟩
  · rw [← ofEntries_shownEntries expands keys,
      Json.ofEntries_eq (nodup_keys_shownEntries expands keys)]
  · rw [← expand_eq_ok expandsAgain, canonicalFields_shown sound distinct again given same,
      changesValidators_shown sound distinct given same]
    exact related.imp fun _ _ both => both.1

end Objects

theorem stays_object (writing : CheckedText) (entries : List (String × Json)) :
    Stays writing (.object entries) :=
  ⟨Json.noConfusion, fun _ => Json.noConfusion⟩

private theorem writtenAgain_object (sound : context.Sound) {value : Json}
    (inside : ∀ part ∈ parts context .object value, WrittenAgain context part.1.kind part.2) :
    WrittenAgain context .object value := by
  intro distinct field _ _ isObject bytes written
  rw [fieldValueBytes_eq, valueBytesWith, isObject] at written
  obtain ⟨entries, segments, rfl, given, rfl⟩ := objectBytes_eq_ok.mp written
  obtain ⟨shown, normal, givenAgain⟩ := segments_again sound distinct inside given
  rw [normal, fieldValueBytes_eq, valueBytesWith, isObject]
  exact ⟨objectBytes_eq_ok.mpr ⟨shown, segments, rfl, givenAgain, rfl⟩,
    stays_object context.addresses shown⟩

/-! ## Arrays -/

private theorem writtenAgain_array (sound : context.Sound) {value : Json}
    (inside : ∀ part ∈ parts context .array value, WrittenAgain context part.1.kind part.2) :
    WrittenAgain context .array value := by
  intro distinct field _ _ isArray bytes written
  rw [fieldValueBytes_eq, valueBytesWith, isArray] at written
  obtain ⟨items, segments, rfl, given, rfl⟩ := arrayBytes_eq_ok.mp written
  have related := forall₂_parts_of_items given
  rw [NormalForm.value_array, fieldValueBytes_eq, valueBytesWith, isArray]
  refine ⟨arrayBytes_eq_ok.mpr ⟨_, segments, rfl, ?_, rfl⟩,
    Json.noConfusion, fun _ => Json.noConfusion⟩
  rw [List.forall₂_map_left_iff]
  refine Outcome.imp_of_mem_left related fun part member one both => ?_
  obtain ⟨isObject, segmented⟩ := both
  obtain ⟨segmentedAgain, _⟩ := segment_again sound (mem_fields_of_mem_parts member)
    (distinctKeys_of_mem_parts distinct member) (inside part member)
    (fun impossible => absurd impossible (by decide)) segmented
  refine itemSegment_eq_ok.mpr
    ⟨(part.1, NormalForm.value context part.1.kind part.2), ?_, isObject, segmentedAgain⟩
  rw [itemPart?, field?_of_mem_parts member]
  rfl

/-! ## Values at any depth -/

/-- Every value is written again with the same octets, whatever its kind. -/
theorem writtenAgain (sound : context.Sound) (kind : FieldKind) (value : Json) :
    WrittenAgain context kind value := by
  induction kind, value using @parts_induction context with
  | step kind value inside =>
      cases kind with
      | scalar kind =>
          exact writtenAgain_scalar sound kind value
      | object =>
          exact writtenAgain_object sound inside
      | array =>
          exact writtenAgain_array sound inside
      | unsupported =>
          intro _ field _ _ isUnsupported bytes written
          rw [fieldValueBytes_eq, valueBytesWith, isUnsupported] at written
          cases written

/-- The normal form of a document is encoded as the document is. -/
theorem encode_normalForm (sound : context.Sound) {document : Json}
    (distinct : document.distinctKeys = true) {bytes : Bytes}
    (encoded : encode context false document = .ok bytes) :
    encode context false (NormalForm.document context document) = .ok bytes := by
  obtain ⟨entries, written, rfl, given, rfl⟩ := objectBytes_eq_ok.mp encoded
  obtain ⟨shown, normal, givenAgain⟩ := segments_again sound distinct
    (fun part _ => writtenAgain sound part.1.kind part.2) given
  rw [NormalForm.document, normal]
  exact objectBytes_eq_ok.mpr ⟨shown, written, rfl, givenAgain, rfl⟩

end LedgerWire.Object
