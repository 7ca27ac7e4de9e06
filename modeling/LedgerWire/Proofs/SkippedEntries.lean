import LedgerWire.Proofs.WrittenFields
import LedgerWire.Proofs.SigningPayload

/-!
# Entries that are skipped

An entry that is not written has no influence on the octets or the error, unless
an extended address meets it before the entries are chosen: its own value is one
with a tag, or its key is the place for the tag of another. Over the ledger's own
registry these are the exceptions, and each of them is refused.
-/

namespace LedgerWire.Object

/-- An entry that is not written: its key or its field has no place in an encoding,
or its value is null. -/
inductive Skipped (registry : Registry) : String → Json → Prop
  | unknown {key : String} {value : Json} (absent : registry.field? key = none) :
      Skipped registry key value
  | unserialized {key : String} {value : Json} {field : Field}
      (found : registry.field? key = some field) (unwritten : field.serialized = false) :
      Skipped registry key value
  | null {key : String} {value : Json} (isNull : value = .null) : Skipped registry key value

/-- A value that is an extended address with a tag. -/
def CarriesTag (writing : CheckedText) (value : Json) : Prop :=
  ∃ text address tag, value = .string text ∧
    Address.extended? writing text = some address ∧ address.tag = some tag

/-- How an entry that is not written shows in spite of that, among the others of
its object. -/
inductive Observed (context : Context) (entries : List (String × Json)) (key : String)
    (value : Json) : Prop
  | tagged (carries : CarriesTag context.addresses value)
  | claimed {other : String} {held : Json} (member : (other, held) ∈ entries)
      (carries : CarriesTag context.addresses held) (place : tagField? other = some key)
  | typed {shown : Json} (isType : key = "TransactionType")
      (inPlace : (key, shown) ∈ replaced context.addresses (key, value))
      (names : NamesChange context.registry shown)

/-! ## Looking up among the others -/

theorem lookup_insert_of_ne {before after : List (String × Json)} {key other : String}
    {value : Json} (differs : other ≠ key) :
    (before ++ (key, value) :: after).lookup other = (before ++ after).lookup other := by
  have apart : (other == key) = false := beq_eq_false_iff_ne.mpr differs
  rw [List.lookup_append, List.lookup_append, List.lookup_cons, apart]

section Expansion

variable {writing : CheckedText} {before after : List (String × Json)} {key : String}
  {value : Json}

/-- An entry is expanded as without the new one, unless its tag would take the new
one's place. -/
theorem expandEntry_insert {entry : String × Json}
    (unclaimed : CarriesTag writing entry.2 → tagField? entry.1 ≠ some key) :
    expandEntry writing (before ++ (key, value) :: after) entry =
      expandEntry writing (before ++ after) entry := by
  obtain ⟨name, held⟩ := entry
  cases held with
  | string text =>
      simp only [expandEntry]
      cases extended : Address.extended? writing text with
      | none =>
          rfl
      | some address =>
          simp only [expandAddress]
          cases tagged : address.tag with
          | none =>
              rfl
          | some tag =>
              cases place : tagField? name with
              | none =>
                  rfl
              | some tagField =>
                  have differs : tagField ≠ key := by
                    rintro rfl
                    exact unclaimed ⟨text, address, tag, rfl, extended, tagged⟩ place
                  simp only [lookup_insert_of_ne differs]
  | _ =>
      rfl

/-- Without a tag an entry stays under its key alone, and it is null if it was. -/
theorem replaced_of_untagged (untagged : ¬ CarriesTag writing value) :
    ∃ shown, replaced writing (key, value) = [(key, shown)] ∧
      (value = .null → shown = .null) ∧
      ∀ entries, expandEntry writing entries (key, value) = .ok [(key, shown)] := by
  cases value with
  | string text =>
      cases extended : Address.extended? writing text with
      | none =>
          refine ⟨.string text, ?_, Json.noConfusion, fun entries => ?_⟩
          · simp only [replaced, extended]
          · simp only [expandEntry, extended]
      | some address =>
          have noTag : address.tag = none := by
            apply Option.eq_none_iff_forall_ne_some.mpr
            intro tag tagged
            exact untagged ⟨text, address, tag, rfl, extended, tagged⟩
          refine ⟨.string (Address.encodeClassic writing address.account), ?_,
            Json.noConfusion, fun entries => ?_⟩
          · simp only [replaced, extended, classicEntries, noTag]
          · simp only [expandEntry, extended, expandAddress, noTag]
  | _ =>
      exact ⟨_, rfl, id, fun _ => rfl⟩

theorem flatten_of_mapM {entries worked : List (String × Json)}
    {groups : List (List (String × Json))}
    (mapped : worked.mapM (expandEntry writing entries) = .ok groups) :
    groups.flatten = expanded writing worked := by
  have related := Outcome.mapM_eq_ok.mp mapped
  clear mapped
  induction related with
  | nil =>
      rfl
  | cons given _ inductionHypothesis =>
      rw [List.flatten_cons, inductionHypothesis, expandEntry_eq_ok given]
      rfl

/-- Expansion with the new entry goes as without it, and where it succeeds the new
entry stands at its place. -/
theorem expand_insert {shown : Json}
    (alone : ∀ entries, expandEntry writing entries (key, value) = .ok [(key, shown)])
    (unclaimed : ∀ entry ∈ before ++ after,
      CarriesTag writing entry.2 → tagField? entry.1 ≠ some key) :
    (∃ fault, expand writing (before ++ (key, value) :: after) = .error fault ∧
      expand writing (before ++ after) = .error fault) ∨
    (expand writing (before ++ after) =
        .ok (expanded writing before ++ expanded writing after) ∧
      expand writing (before ++ (key, value) :: after) =
        .ok (expanded writing before ++ (key, shown) :: expanded writing after)) := by
  have first : before.mapM (expandEntry writing (before ++ (key, value) :: after)) =
      before.mapM (expandEntry writing (before ++ after)) :=
    Outcome.mapM_congr fun entry member =>
      expandEntry_insert (unclaimed entry (List.mem_append_left after member))
  have second : after.mapM (expandEntry writing (before ++ (key, value) :: after)) =
      after.mapM (expandEntry writing (before ++ after)) :=
    Outcome.mapM_congr fun entry member =>
      expandEntry_insert (unclaimed entry (List.mem_append_right before member))
  simp only [expand, List.mapM_append, List.mapM_cons, first, second, alone]
  cases frontMapped : before.mapM (expandEntry writing (before ++ after)) with
  | error fault =>
      exact .inl ⟨fault, rfl, rfl⟩
  | ok front =>
      cases backMapped : after.mapM (expandEntry writing (before ++ after)) with
      | error fault =>
          exact .inl ⟨fault, rfl, rfl⟩
      | ok back =>
          rw [← flatten_of_mapM frontMapped, ← flatten_of_mapM backMapped]
          apply Or.inr
          simp

end Expansion

/-! ## What is written of the others -/

section Writing

variable {registry : Registry} {signingOnly : Bool} {front back : List (String × Json)}
  {key : String} {shown : Json}

private theorem writtenField?_of_skipped (skipped : Skipped registry key shown) :
    writtenField? registry signingOnly (key, shown) = none := by
  apply Option.eq_none_iff_forall_ne_some.mpr
  intro field written
  have kept := writtenField?_eq_some_iff.mp written
  cases skipped with
  | unknown absent =>
      cases absent.symm.trans kept.known
  | unserialized found unwritten =>
      cases found.symm.trans kept.known
      cases unwritten.symm.trans kept.serialized
  | null isNull =>
      exact kept.nonNull isNull

private theorem canonicalFields_insert (skipped : Skipped registry key shown) :
    canonicalFields registry signingOnly (front ++ (key, shown) :: back) =
      canonicalFields registry signingOnly (front ++ back) := by
  have dropped : writtenFields registry signingOnly (front ++ (key, shown) :: back) =
      writtenFields registry signingOnly (front ++ back) := by
    rw [writtenFields, writtenFields, List.filterMap_append, List.filterMap_append,
      List.filterMap_cons_none (by rw [writtenField?_of_skipped skipped]; rfl)]
  rw [canonicalFields, canonicalFields, dropped]

/-- Only the entry for the type tells whether the validators are changed. -/
theorem changesValidators_insert
    (untyped : key = "TransactionType" →
      key ∉ (front ++ back).map (·.1) ∧ ¬ NamesChange registry shown) :
    changesValidators registry (front ++ (key, shown) :: back) =
      changesValidators registry (front ++ back) := by
  rw [Bool.eq_iff_iff, changesValidators_eq_true, changesValidators_eq_true]
  by_cases isType : key = "TransactionType"
  · obtain ⟨absent, other⟩ := untyped isType
    rw [isType] at absent
    have missing : (front ++ back).lookup "TransactionType" = none := by
      apply Option.eq_none_iff_forall_ne_some.mpr
      intro value found
      exact absent (List.mem_map_of_mem (mem_of_lookup found))
    have first : front.lookup "TransactionType" = none := by
      rw [List.lookup_append] at missing
      exact (Option.or_eq_none_iff.mp missing).1
    have alone : (front ++ (key, shown) :: back).lookup "TransactionType" = some shown := by
      rw [List.lookup_append, first, isType, List.lookup_cons_self]
      rfl
    rw [missing, alone]
    constructor
    · rintro ⟨value, names, same⟩
      cases same
      exact absurd names other
    · rintro ⟨value, _, impossible⟩
      cases impossible
  · rw [lookup_insert_of_ne (Ne.symm isType)]

end Writing

/-! ## The whole object -/

variable {context : Context} {signingOnly : Bool} {before after : List (String × Json)}
  {key : String} {value : Json}

/-- No address brings a type with it. -/
theorem type_notMem_expanded {entries : List (String × Json)}
    (absent : "TransactionType" ∉ entries.map (·.1)) :
    "TransactionType" ∉ (expanded context.addresses entries).map (·.1) := by
  intro present
  obtain ⟨shown, shownMember, isType⟩ := List.mem_map.mp present
  obtain ⟨origin, member, inPlace⟩ := List.mem_flatMap.mp shownMember
  rcases key_of_mem_replaced inPlace with same | place
  · exact absent (List.mem_map.mpr ⟨origin, member, same.symm.trans isType⟩)
  · rw [isType] at place
    rcases tagField?_eq_some place with ⟨_, other⟩ | ⟨_, other⟩
    · exact absurd other (by decide)
    · exact absurd other (by decide)

private theorem segments_insert (signingOnly : Bool) (writeValue : ValueWriter)
    (absent : key ∉ (before ++ after).map (·.1))
    (skipped : Skipped context.registry key value)
    (unobserved : ¬ Observed context (before ++ after) key value) :
    segments context.registry context.addresses writeValue signingOnly
        (before ++ (key, value) :: after) =
      segments context.registry context.addresses writeValue signingOnly (before ++ after) := by
  obtain ⟨shown, inPlace, null, alone⟩ :=
    replaced_of_untagged fun carries => unobserved (.tagged carries)
  have unclaimed : ∀ entry ∈ before ++ after,
      CarriesTag context.addresses entry.2 → tagField? entry.1 ≠ some key := by
    intro entry member carries place
    exact unobserved (.claimed member carries place)
  have shownSkipped : Skipped context.registry key shown := by
    cases skipped with
    | unknown missing =>
        exact .unknown missing
    | unserialized found unwritten =>
        exact .unserialized found unwritten
    | null isNull =>
        exact .null (null isNull)
  have untyped : key = "TransactionType" →
      key ∉ (expanded context.addresses before ++ expanded context.addresses after).map (·.1) ∧
        ¬ NamesChange context.registry shown := by
    intro isType
    constructor
    · rw [isType] at absent ⊢
      have missing :
          "TransactionType" ∉ (expanded context.addresses (before ++ after)).map (·.1) :=
        type_notMem_expanded absent
      rwa [expanded, List.flatMap_append] at missing
    · intro names
      have member : (key, shown) ∈ replaced context.addresses (key, value) := by
        rw [inPlace]
        exact List.mem_singleton_self _
      exact unobserved (.typed isType member names)
  rcases expand_insert alone unclaimed with ⟨fault, withIt, without⟩ | ⟨without, withIt⟩
  · rw [segments, segments, withIt, without]
  · rw [segments, segments, withIt, without, Outcome.ok_bind, Outcome.ok_bind,
      canonicalFields_insert shownSkipped, changesValidators_insert untyped]

theorem expand_error_of_mem {writing : CheckedText} {entries : List (String × Json)}
    {entry : String × Json} {fault : Error} (member : entry ∈ entries)
    (refused : expandEntry writing entries entry = .error fault) :
    ∃ fault, expand writing entries = .error fault := by
  cases expands : expand writing entries with
  | error other =>
      exact ⟨other, rfl⟩
  | ok result =>
      obtain ⟨groups, mapped, _⟩ := Outcome.bind_eq_ok.mp expands
      obtain ⟨_, _, given⟩ := Outcome.exists_of_mem_left (Outcome.mapM_eq_ok.mp mapped) member
      cases refused.symm.trans given

/-- Under a key that a signature covers only null is skipped. -/
theorem null_of_skipped {registry : Registry} (signed : Signed registry key)
    (skipped : Skipped registry key value) : value = .null := by
  obtain ⟨field, known, serialized, _⟩ := signed
  cases skipped with
  | unknown absent =>
      cases absent.symm.trans known
  | unserialized found unwritten =>
      cases found.symm.trans known
      cases unwritten.symm.trans serialized
  | null isNull =>
      exact isNull

/-- Where the fields of tagged accounts and the type of a transaction are written, an
entry that shows all the same is refused. -/
theorem expand_observed (origins : SignsOrigins context.registry)
    (skipped : Skipped context.registry key value)
    (observed : Observed context (before ++ after) key value) :
    ∃ fault, expand context.addresses (before ++ (key, value) :: after) = .error fault := by
  have here : (key, value) ∈ before ++ (key, value) :: after :=
    List.mem_append_right before List.mem_cons_self
  cases observed with
  | tagged carries =>
      obtain ⟨text, address, tag, rfl, extended, tagged⟩ := carries
      have noPlace : tagField? key = none := by
        apply Option.eq_none_iff_forall_ne_some.mpr
        intro place found
        cases null_of_skipped (origins.tagged found) skipped
      apply expand_error_of_mem here
      simp only [expandEntry, extended, expandAddress, tagged, noPlace]
      rfl
  | @claimed other held member carries place =>
      obtain ⟨text, address, tag, rfl, extended, tagged⟩ := carries
      have taken : ((before ++ (key, value) :: after).lookup key).isSome := by
        apply List.lookup_isSome_iff.mpr
        exact ⟨_, here, beq_self_eq_true key⟩
      have still : (other, .string text) ∈ before ++ (key, value) :: after := by
        rcases List.mem_append.mp member with front | back
        · exact List.mem_append_left _ front
        · exact List.mem_append_right _ (List.mem_cons_of_mem _ back)
      apply expand_error_of_mem still
      simp only [expandEntry, extended, expandAddress, tagged, place, taken, if_true]
      rfl
  | typed isType inPlace names =>
      have isNull : value = .null := null_of_skipped (isType ▸ origins.transactionType) skipped
      rw [isNull] at inPlace
      cases List.mem_singleton.mp inPlace
      exact absurd rfl (nonNull_of_namesChange names)

/-- An entry that is skipped leaves the octets and the error as they are unless it
shows. Over the ledger's own registry an object where it shows is refused. -/
theorem encode_insert_skipped (absent : key ∉ (before ++ after).map (·.1))
    (skipped : Skipped context.registry key value) :
    (¬ Observed context (before ++ after) key value →
      encode context signingOnly (.object (before ++ (key, value) :: after)) =
        encode context signingOnly (.object (before ++ after))) ∧
    (context.registry = Registry.bundled →
      Observed context (before ++ after) key value →
      ∃ fault,
        encode context signingOnly (.object (before ++ (key, value) :: after)) =
          .error fault) := by
  constructor
  · intro unobserved
    have same := segments_insert signingOnly (fieldValueBytes context) absent skipped unobserved
    simp only [encode, objectBytes, Json.asObject, Outcome.ok_bind, same]
  · intro own observed
    have origins : SignsOrigins context.registry := own ▸ bundled_signsOrigins
    obtain ⟨fault, refused⟩ := expand_observed origins skipped observed
    refine ⟨fault, ?_⟩
    simp only [encode, objectBytes, Json.asObject, segments, refused, Outcome.ok_bind,
      Outcome.error_bind]

/-- The account of an entry whose address brings a tag with it. -/
def taggedAccount : String × Json :=
  ("Account", .string "XVbLX9oZskZjyu4wTw86a1mPzyjiPGLPVLZZXrm7zGWJGLE")

/-- Beside a tagged account a note has no influence, and a null tag is refused. -/
theorem encode_insert_skipped_tagged :
    encode Context.standard false (.object [taggedAccount, ("Note", .string "unknown")]) =
        encode Context.standard false (.object [taggedAccount]) ∧
      ∃ fault, encode Context.standard false (.object [taggedAccount, ("SourceTag", .null)]) =
        .error fault := by
  have extended : (Address.extended? CheckedText.base58
      "XVbLX9oZskZjyu4wTw86a1mPzyjiPGLPVLZZXrm7zGWJGLE").any (·.tag == some 12) = true := by
    decide +kernel
  obtain ⟨address, found, tagged⟩ := (Option.any_eq_true _ _).mp extended
  constructor
  · have absent : "Note" ∉ ([taggedAccount] ++ ([] : List (String × Json))).map (·.1) := by
      decide
    have skipped : Skipped Context.standard.registry "Note" (.string "unknown") :=
      .unknown (by decide +kernel)
    apply (encode_insert_skipped absent skipped).1
    intro observed
    cases observed with
    | tagged carries =>
        obtain ⟨text, address, tag, same, isExtended, _⟩ := carries
        cases same
        have classic : Address.extended? CheckedText.base58 "unknown" = none :=
          Address.extended?_of_length CheckedText.base58_distinctive (by decide)
        cases classic.symm.trans isExtended
    | claimed member carries place =>
        rcases tagField?_eq_some place with ⟨_, other⟩ | ⟨_, other⟩
        · exact absurd other (by decide)
        · exact absurd other (by decide)
    | typed isType inPlace names =>
        exact absurd isType (by decide)
  · have absent : "SourceTag" ∉ ([taggedAccount] ++ ([] : List (String × Json))).map (·.1) := by
      decide
    have skipped : Skipped Context.standard.registry "SourceTag" .null := .null rfl
    apply (encode_insert_skipped absent skipped).2 rfl
    exact .claimed (List.mem_singleton_self _)
      ⟨_, address, 12, rfl, found, beq_iff_eq.mp tagged⟩ rfl

/-- A null tag and an unknown note show all the same. -/
theorem skipped_entries_observed :
    (encode Context.standard false (.object [taggedAccount]) =
        .ok [0x23, 0, 0, 0, 12, 0x81, 20, 0xDD, 0x76, 0x48, 0x3F, 0xAC, 0xDE, 0xE2, 0x6E, 0x60,
          0xD8, 0xA5, 0x86, 0xBB, 0x58, 0xD0, 0x9F, 0x27, 0x04, 0x5C, 0x46] ∧
      (encode Context.standard false
          (.object [taggedAccount, ("SourceTag", .null)])).mapError Error.message =
        .error "cannot have both an X-address on Account and an explicit SourceTag") ∧
    (encode Context.standard false (.object [("Flags", Json.ofNat 0)]) =
        .ok [0x22, 0, 0, 0, 0] ∧
      (encode Context.standard false
          (.object [("Flags", Json.ofNat 0), ("Note", taggedAccount.2)])).mapError
            Error.message =
        .error "Note cannot have an associated tag") := by
  refine ⟨⟨Outcome.eq_ok_of_toOption ?_, ?_⟩, Outcome.eq_ok_of_toOption ?_, ?_⟩ <;>
    decide +kernel

end LedgerWire.Object
