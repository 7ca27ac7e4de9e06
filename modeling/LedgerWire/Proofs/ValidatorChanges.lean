import LedgerWire.Proofs.AddressExpansion
import LedgerWire.Proofs.InnerObjects
import LedgerWire.Proofs.Spelling

/-!
# Changes of the validators

The transaction that changes the list of validators is written with an account that has
no value. Which object is one is told by its own type alone: by its name, its number or
any text of the number. Every other account is written whole.
-/

namespace LedgerWire.Object

/-! ## Spellings of the type -/

/-- The values that stand for the type of the transactions that change the validators: its
name, its number, and every text of the number. -/
inductive SpellsChange : Json → Prop
  | name : SpellsChange (.string "UNLModify")
  | number {value : Number} (isCode : value.toSigned? = some 102) : SpellsChange (.number value)
  | text {text : String} (isCode : Text.signed64? text.toList = some 102) :
      SpellsChange (.string text)

/-- No other type has the number, and no name of a type is the text of a number. -/
theorem transactionTypes_checked : ∀ entry ∈ Registry.bundled.transactionTypes.entries,
    (entry.2 = 102 → entry.1 = "UNLModify") ∧ Text.signed64? entry.1.toList = none := by
  decide +kernel

private theorem name?_eq_change {code : Int} :
    (Registry.bundled.table .transactionType).name? code = some "UNLModify" ↔ code = 102 := by
  constructor
  · intro shown
    have found := Registry.bundled_named.code_of_name shown
    have isCode : (Registry.bundled.table .transactionType).code? "UNLModify" = some 102 := rfl
    exact Option.some.inj (found.symm.trans isCode)
  · rintro rfl
    rfl

private theorem namesChange_iff_code {value : Json} :
    NamesChange Registry.bundled value ↔
      EnumCode.codeOfJson Registry.bundled .transactionType value = .ok 102 := by
  constructor
  · rintro ⟨_, read, named⟩
    obtain ⟨code, given, taken⟩ := Outcome.bind_eq_ok.mp read
    obtain ⟨_, _, positive, _, rfl⟩ := EnumCode.ofCode_eq_ok taken
    rw [EnumCode.name?, Int.toNat_of_nonneg positive, name?_eq_change] at named
    rw [given, named]
  · intro given
    refine ⟨⟨.transactionType, 102⟩, ?_, rfl⟩
    rw [EnumCode.ofJson, given]
    rfl

/-- What the table of types makes of a value is the change exactly if the value spells it. -/
theorem namesChange_iff {value : Json} :
    NamesChange Registry.bundled value ↔ SpellsChange value := by
  rw [namesChange_iff_code]
  constructor
  · intro given
    cases value with
    | string text =>
        cases named : (Registry.bundled.table .transactionType).code? text with
        | some code =>
            simp only [EnumCode.codeOfJson, named, Except.ok.injEq] at given
            have only : text = "UNLModify" :=
              (transactionTypes_checked _ (mem_of_lookup named)).1 given
            rw [only]
            exact .name
        | none =>
            cases numeric : Text.signed64? text.toList with
            | some code =>
                simp only [EnumCode.codeOfJson, named, numeric, Except.ok.injEq] at given
                exact .text (given ▸ numeric)
            | none =>
                simp [EnumCode.codeOfJson, named, numeric] at given
    | number value =>
        cases signed : value.toSigned? with
        | some code =>
            simp only [EnumCode.codeOfJson, signed, Except.ok.injEq] at given
            exact .number (given ▸ signed)
        | none =>
            simp [EnumCode.codeOfJson, signed] at given
    | _ =>
        cases given
  · intro spells
    cases spells with
    | name =>
        rfl
    | number isCode =>
        simp only [EnumCode.codeOfJson, isCode]
    | @text text isCode =>
        have unnamed : (Registry.bundled.table .transactionType).code? text = none := by
          apply Option.eq_none_iff_forall_ne_some.mpr
          intro code named
          have worded := (transactionTypes_checked _ (mem_of_lookup named)).2
          cases worded.symm.trans isCode
        simp only [EnumCode.codeOfJson, unnamed, isCode]

/-! ## The type among other entries -/

/-- Whether the type of an object, with a classic address in place of an extended one, is
that of the transactions that change the validators. -/
def Changes (writing : CheckedText) (entries : List (String × Json)) : Prop :=
  ∃ value, SpellsChange value ∧
    (expanded writing entries).lookup "TransactionType" = some value

theorem changesValidators_iff {writing : CheckedText} {entries : List (String × Json)} :
    changesValidators Registry.bundled (expanded writing entries) = true ↔
      Changes writing entries := by
  rw [changesValidators_eq_true]
  exact exists_congr fun value => and_congr_left fun _ => namesChange_iff

/-- The digits are 1, 0 and 2, with zeros in front. -/
theorem zero_mem_of_signed64? {text : List Char} (isCode : Text.signed64? text = some 102) :
    '0' ∈ text := by
  obtain ⟨spelled, _⟩ := Option.filter_eq_some_iff.mp isCode
  rw [Decimal.signed?_eq] at spelled
  obtain ⟨value, read, same⟩ := Option.map_eq_some_iff.mp spelled
  obtain ⟨digits, _, shown, isValue⟩ := Text.whole?_eq_some.mp read
  have code : value = 102 := by
    unfold Decimal.signed at same
    split at same <;> omega
  have restored := Text.wholeDigits_wholeValue digits
  rw [isValue, code] at restored
  have inside : (0 : Fin 10) ∈ digits.dropWhile (· == 0) := by
    rw [← restored]
    decide +kernel
  obtain ⟨sign, signed⟩ := Decimal.exists_sign text
  rw [signed, shown]
  exact List.mem_append_right _ (List.mem_map.mpr ⟨0, Radix.mem_of_mem_dropWhile inside, rfl⟩)

private theorem eq_of_spells {text : String} (noZero : '0' ∉ text.toList)
    (spells : SpellsChange (.string text)) : text = "UNLModify" := by
  cases spells with
  | name =>
      rfl
  | text isCode =>
      exact absurd (zero_mem_of_signed64? isCode) noZero

/-- No address spells a number with a zero. -/
theorem eq_of_spells_address {payload : Bytes}
    (spells : SpellsChange (.string (CheckedText.base58.encode payload))) :
    CheckedText.base58.encode payload = "UNLModify" :=
  eq_of_spells (Base58.zero_notMem_encode _) spells

private theorem exists_replaced_type (value : Json) :
    ∃ shown, replaced CheckedText.base58 ("TransactionType", value) =
        [("TransactionType", shown)] ∧ (SpellsChange shown ↔ SpellsChange value) := by
  rcases classic_or_extended CheckedText.base58 value with classic | ⟨text, address, rfl, found⟩
  · exact ⟨value, replaced_of_classic classic, Iff.rfl⟩
  · refine ⟨.string (Address.encodeClassic CheckedText.base58 address.account), ?_, ?_⟩
    · simp only [replaced, found, classicEntries]
      cases address.tag <;> rfl
    · constructor
      · intro spells
        obtain ⟨rest, lead⟩ := CheckedText.base58_distinctive.classic_lead address.account
        rw [Address.encodeClassic, eq_of_spells_address spells] at lead
        cases lead
      · intro spells
        have size := CheckedText.base58_distinctive.length_extended address
        rw [(Address.extended?_eq_some CheckedText.base58_lawful).mp found] at spells
        rw [Address.encodeExtended, eq_of_spells_address spells] at size
        cases size

/-- An address is no type, so the type of an object is what stands in its own entry. -/
theorem changes_base58_iff {entries : List (String × Json)} :
    Changes CheckedText.base58 entries ↔
      ∃ value, SpellsChange value ∧ entries.lookup "TransactionType" = some value := by
  unfold Changes
  induction entries with
  | nil =>
      exact Iff.rfl
  | cons entry rest inductionHypothesis =>
      obtain ⟨key, value⟩ := entry
      rw [expanded, List.flatMap_cons, List.lookup_append]
      by_cases isType : key = "TransactionType"
      · subst isType
        obtain ⟨shown, inPlace, same⟩ := exists_replaced_type value
        rw [inPlace, List.lookup_cons_self, List.lookup_cons_self]
        simpa using same
      · have absent : (replaced CheckedText.base58 (key, value)).lookup "TransactionType" =
            none := by
          apply Option.eq_none_iff_forall_ne_some.mpr
          intro held found
          have missing : "TransactionType" ∉
              (expanded Context.standard.addresses [(key, value)]).map (·.1) :=
            type_notMem_expanded (by simpa using Ne.symm isType)
          rw [expanded, List.flatMap_singleton] at missing
          exact missing (List.mem_map_of_mem (mem_of_lookup found))
        rw [absent, Option.none_or, List.lookup_cons,
          beq_eq_false_iff_ne.mpr (Ne.symm isType)]
        exact inductionHypothesis

/-! ## The value of the account is not looked at -/

/-- An item without what it holds, if it is an account. -/
def blanked (item : Field × Json) : Field × Json :=
  if item.1.name = "Account" then (item.1, .null) else item

private theorem blanked_field (item : Field × Json) : (blanked item).1 = item.1 := by
  unfold blanked
  split <;> rfl

private theorem map_insertField (item : Field × Json) (items : List (Field × Json)) :
    (insertField item items).map blanked = insertField (blanked item) (items.map blanked) := by
  induction items with
  | nil =>
      rfl
  | cons first rest inductionHypothesis =>
      rw [List.map_cons, insertField, insertField, blanked_field, blanked_field]
      split
      · rfl
      · rw [List.map_cons, inductionHypothesis]

private theorem map_canonicalFields (registry : Registry) (signingOnly : Bool)
    (entries : List (String × Json)) :
    (canonicalFields registry signingOnly entries).map blanked =
      ((writtenFields registry signingOnly entries).map blanked).foldr insertField [] := by
  unfold canonicalFields
  induction writtenFields registry signingOnly entries with
  | nil =>
      rfl
  | cons item rest inductionHypothesis =>
      rw [List.foldr_cons, List.map_cons, List.foldr_cons, map_insertField, inductionHypothesis]

section Blanking

variable {registry : Registry} {signingOnly : Bool} {front back : List (String × Json)}
  {first second : Json}

private theorem writtenField?_of_nonNull {key : String} (firstThere : first ≠ .null)
    (secondThere : second ≠ .null) :
    writtenField? registry signingOnly (key, first) =
      writtenField? registry signingOnly (key, second) := by
  apply Option.ext
  intro field
  rw [writtenField?_eq_some_iff, writtenField?_eq_some_iff]
  constructor
  · intro kept
    exact ⟨kept.known, kept.serialized, secondThere, kept.signing⟩
  · intro kept
    exact ⟨kept.known, kept.serialized, firstThere, kept.signing⟩

/-- Two values of the account give the same items but for themselves. -/
theorem blanked_canonicalFields (firstThere : first ≠ .null) (secondThere : second ≠ .null) :
    (canonicalFields registry signingOnly (front ++ ("Account", first) :: back)).map blanked =
      (canonicalFields registry signingOnly (front ++ ("Account", second) :: back)).map
        blanked := by
  rw [map_canonicalFields, map_canonicalFields]
  congr 1
  rw [writtenFields, writtenFields, List.filterMap_append, List.filterMap_append, List.map_append,
    List.map_append]
  congr 1
  have same : writtenField? registry signingOnly ("Account", first) =
      writtenField? registry signingOnly ("Account", second) :=
    writtenField?_of_nonNull firstThere secondThere
  cases found : writtenField? registry signingOnly ("Account", second) with
  | none =>
      rw [found] at same
      rw [List.filterMap_cons_none (by rw [same]; rfl),
        List.filterMap_cons_none (by rw [found]; rfl)]
  | some field =>
      rw [found] at same
      have named : field.name = "Account" :=
        (Registry.mem_of_field? (writtenField?_eq_some_iff.mp found).known).2
      rw [List.filterMap_cons_some (by rw [same]; rfl),
        List.filterMap_cons_some (by rw [found]; rfl), List.map_cons, List.map_cons]
      simp only [blanked, if_pos named]

/-- The type stands beside the account. -/
theorem changesValidators_beside :
    changesValidators registry (front ++ ("Account", first) :: back) =
      changesValidators registry (front ++ ("Account", second) :: back) := by
  have differs : "TransactionType" ≠ "Account" := by decide
  rw [changesValidators, changesValidators, lookup_insert_of_ne differs,
    lookup_insert_of_ne differs]

end Blanking

/-- The field for the account of an object. -/
def accountField : Field := ⟨"Account", "AccountID", 8, 1, true, true, true⟩

private theorem eq_accountField {field : Field} (named : field.name = "Account")
    (known : Registry.bundled.field? field.name = some field) : field = accountField := by
  have isAccount : Registry.bundled.field? "Account" = some accountField := rfl
  rw [named, isAccount] at known
  exact (Option.some.inj known).symm

section Unread

variable {addresses : CheckedText} {signingOnly : Bool} {before after : List (String × Json)}
  {first second : Json}

private theorem mapM_blanked (writeValue : ValueWriter) {items : List (Field × Json)}
    (known : ∀ item ∈ items, Registry.bundled.field? item.1.name = some item.1) :
    (items.mapM fun item => segment writeValue item.1 item.2 (item.1.name == "Account")) =
      (items.map blanked).mapM fun item =>
        segment writeValue item.1 item.2 (item.1.name == "Account") := by
  rw [Outcome.mapM_map]
  refine Outcome.mapM_congr fun item member => ?_
  rw [blanked_field]
  by_cases named : item.1.name = "Account"
  · have prefixed : item.1.lengthPrefixed = true := by
      rw [eq_accountField named (known item member)]
      rfl
    rw [beq_iff_eq.mpr named]
    exact segment_omitted prefixed _ _
  · rw [blanked, if_neg named]

private theorem field?_of_mem_canonical {registry : Registry} {entries : List (String × Json)} :
    ∀ item ∈ canonicalFields registry signingOnly entries,
      registry.field? item.1.name = some item.1 := by
  intro item member
  exact (mem_writtenFields ((canonicalFields_perm _ _ _).mem_iff.mp member)).2.1

/-- Where the validators are changed, all values of the account that stay in their place are
written alike, and where something else is refused they are refused alike. -/
theorem segments_unread (writeValue : ValueWriter) (firstStays : Stays addresses first)
    (secondStays : Stays addresses second)
    (changes : Changes addresses (before ++ ("Account", first) :: after)) :
    segments Registry.bundled addresses writeValue signingOnly
        (before ++ ("Account", first) :: after) =
      segments Registry.bundled addresses writeValue signingOnly
        (before ++ ("Account", second) :: after) := by
  rcases expand_at (expandEntry_of_stays firstStays) (expandEntry_of_stays secondStays) with
    ⟨fault, firstRefused, secondRefused⟩ | ⟨firstGiven, secondGiven⟩
  · rw [segments, segments, firstRefused, secondRefused]
  · have firstChanges := changesValidators_iff.mpr changes
    rw [← expand_eq_ok firstGiven, List.singleton_append] at firstChanges
    have secondChanges : changesValidators Registry.bundled
        (expanded addresses before ++ ("Account", second) :: expanded addresses after) = true :=
      changesValidators_beside.trans firstChanges
    rw [segments, segments, firstGiven, secondGiven, Outcome.ok_bind, Outcome.ok_bind,
      List.singleton_append, List.singleton_append, firstChanges, secondChanges]
    simp only [Bool.true_and]
    rw [mapM_blanked writeValue field?_of_mem_canonical,
      mapM_blanked writeValue field?_of_mem_canonical,
      blanked_canonicalFields firstStays.1 secondStays.1]

end Unread

/-! ## The account of an object that is written -/

/-- How the account of an object stands in what is written of it: once, if it has one that is
not null, and without a value or as the twenty octets of it, as its own type decides. -/
structure AccountWritten (addresses : CheckedText) (entries : List (String × Json))
    (written : List Segment) : Prop where
  once : ∀ value, ("Account", value) ∈ entries → value ≠ .null →
    ∃ front one back, written = front ++ one :: back ∧ one.field.name = "Account" ∧
      ∀ other ∈ front ++ back, other.field.name ≠ "Account"
  empty : Changes addresses entries → ∀ one ∈ written, one.field.name = "Account" →
    one.bytes = [0x81, 0]
  whole : ¬ Changes addresses entries → ∀ one ∈ written, one.field.name = "Account" →
    ∃ value account, Supplied addresses entries "Account" value ∧
      Account.ofJson addresses "AccountID" value = .ok account ∧
      one.bytes = 0x81 :: 20 :: account.bytes

section Written

variable {addresses : CheckedText} {signingOnly : Bool} {entries : List (String × Json)}
  {written : List Segment}

/-- The segment of an account is that of a value which the object supplies for it. -/
theorem account_of_segments
    (given : segmentsOf ⟨Registry.bundled, addresses⟩ signingOnly entries = .ok written)
    {one : Segment} (member : one ∈ written) (named : one.field.name = "Account") :
    ∃ value, Supplied addresses entries "Account" value ∧
      segment (fieldValueBytes ⟨Registry.bundled, addresses⟩) accountField value
        (changesValidators Registry.bundled (expanded addresses entries)) = .ok one := by
  obtain ⟨⟨field, value⟩, present, segmented⟩ :=
    Outcome.exists_of_mem_right (segments_eq_ok.mp given).2 member
  have same : one.field = field := (segment_eq_ok.mp segmented).2.1
  rw [same] at named
  obtain rfl := eq_accountField named (field?_of_mem_canonical _ present)
  obtain ⟨inExpanded, _⟩ := mem_writtenFields ((canonicalFields_perm _ _ _).mem_iff.mp present)
  have isAccount : (accountField.name == "Account") = true := rfl
  simp only [isAccount, Bool.and_true] at segmented
  exact ⟨value, mem_expanded_iff_supplied.mp inExpanded, segmented⟩

private theorem bytes_of_omitted {writeValue : ValueWriter} {value : Json} {one : Segment}
    (segmented : segment writeValue accountField value true = .ok one) :
    one.bytes = [0x81, 0] := by
  obtain ⟨_, field, bytes, rfl, framed⟩ := segment_eq_ok.mp segmented
  have body : one.body = [0] := (Except.ok.inj framed).symm
  rw [Segment.bytes, field, body]
  rfl

private theorem bytes_of_account {value : Json} {one : Segment}
    (segmented : segment (fieldValueBytes ⟨Registry.bundled, addresses⟩) accountField value
      false = .ok one) :
    ∃ account, Account.ofJson addresses "AccountID" value = .ok account ∧
      one.bytes = 0x81 :: 20 :: account.bytes := by
  obtain ⟨_, field, bytes, given, framed⟩ := segment_eq_ok.mp segmented
  have isScalar : accountField.kind = .scalar .account := rfl
  obtain ⟨scalar, read, rfl⟩ := (fieldValueBytes_scalar isScalar).mp given
  obtain ⟨account, parsed, rfl⟩ := Outcome.bind_pure_eq_ok.mp read
  refine ⟨account, parsed, ?_⟩
  have octets : (Scalar.account account).bytes = account.bytes := rfl
  obtain ⟨front, length, body⟩ := Length.frame_eq_ok.mp framed
  rw [octets, account.length_bytes] at length
  have lengthOctet : front = [20] := (Except.ok.inj length).symm
  rw [Segment.bytes, field, body, lengthOctet]
  rfl

private theorem nodup_names_of_segments
    (given : segmentsOf ⟨Registry.bundled, addresses⟩ signingOnly entries = .ok written)
    (keys : (entries.map (·.1)).Nodup) : (written.map (·.field.name)).Nodup := by
  obtain ⟨⟨result, expands⟩, related⟩ := segments_eq_ok.mp given
  have names : List.Forall₂ Eq
      ((canonicalFields Registry.bundled signingOnly (expanded addresses entries)).map (·.1.name))
      (written.map (·.field.name)) := by
    rw [List.forall₂_map_left_iff, List.forall₂_map_right_iff]
    refine related.imp fun part one segmented => ?_
    rw [(segment_eq_ok.mp segmented).2.1]
  rw [List.forall₂_eq_eq_eq] at names
  rw [← names, ((canonicalFields_perm _ _ _).map _).nodup_iff]
  exact (names_sublist _ _ _).nodup (nodup_keys_expanded expands keys)

/-- An account that is there is written. -/
theorem exists_account_of_segments
    (given : segmentsOf ⟨Registry.bundled, addresses⟩ signingOnly entries = .ok written)
    {value : Json} (present : ("Account", value) ∈ entries) (nonNull : value ≠ .null) :
    ∃ one ∈ written, one.field.name = "Account" := by
  have supplied : ∃ shown, Supplied addresses entries "Account" shown ∧ shown ≠ .null := by
    rcases classic_or_extended addresses value with classic | ⟨text, address, rfl, found⟩
    · exact ⟨value, .plain present classic, nonNull⟩
    · exact ⟨_, .address present found, nofun⟩
  obtain ⟨shown, shownSupplied, shownThere⟩ := supplied
  have kept : Kept Registry.bundled signingOnly "Account" shown accountField :=
    ⟨rfl, rfl, shownThere, fun _ => rfl⟩
  have item : (accountField, shown) ∈
      canonicalFields Registry.bundled signingOnly (expanded addresses entries) :=
    mem_canonicalFields_iff.mpr ⟨"Account", mem_expanded_iff_supplied.mpr shownSupplied, kept⟩
  obtain ⟨one, member, segmented⟩ :=
    Outcome.exists_of_mem_left (segments_eq_ok.mp given).2 item
  refine ⟨one, member, ?_⟩
  rw [(segment_eq_ok.mp segmented).2.1]
  rfl

private theorem accountWritten_of_segments
    (given : segmentsOf ⟨Registry.bundled, addresses⟩ signingOnly entries = .ok written)
    (keys : (entries.map (·.1)).Nodup) : AccountWritten addresses entries written where
  once := by
    intro value present nonNull
    obtain ⟨one, member, named⟩ := exists_account_of_segments given present nonNull
    obtain ⟨front, back, rfl⟩ := List.append_of_mem member
    refine ⟨front, one, back, rfl, named, fun other otherMember same => ?_⟩
    have names := nodup_names_of_segments given keys
    rw [(List.perm_middle.map _).nodup_iff, List.map_cons, List.nodup_cons] at names
    exact names.1 (named.trans same.symm ▸ List.mem_map_of_mem otherMember)
  empty := by
    intro changes one member named
    obtain ⟨value, _, segmented⟩ := account_of_segments given member named
    rw [changesValidators_iff.mpr changes] at segmented
    exact bytes_of_omitted segmented
  whole := by
    intro keeps one member named
    obtain ⟨value, supplied, segmented⟩ := account_of_segments given member named
    rw [Bool.eq_false_iff.mpr fun changes => keeps (changesValidators_iff.mp changes)] at segmented
    obtain ⟨account, read, shown⟩ := bytes_of_account segmented
    exact ⟨value, account, supplied, read, shown⟩

end Written

/-- Over the ledger's own registry a value stands for the type of the transactions that
change the validators exactly if it spells it, and with the ledger's own addresses this is
asked of the entry for the type as it is. Of an object of this type no value of the account
is looked at; and at every level of what is written of an object, the account of an object
inside is written as the type of that object alone decides. -/
theorem account_written_by_own_type :
    (∀ value, NamesChange Registry.bundled value ↔ SpellsChange value) ∧
    (∀ entries, Changes CheckedText.base58 entries ↔
      ∃ value, SpellsChange value ∧ entries.lookup "TransactionType" = some value) ∧
    (∀ addresses signingOnly before after first second,
      Changes addresses (before ++ ("Account", first) :: after) →
      Stays addresses first → Stays addresses second →
        encode ⟨Registry.bundled, addresses⟩ signingOnly
            (.object (before ++ ("Account", first) :: after)) =
          encode ⟨Registry.bundled, addresses⟩ signingOnly
            (.object (before ++ ("Account", second) :: after))) ∧
    ∀ addresses signingOnly outer bytes, (Json.object outer).distinctKeys = true →
      encode ⟨Registry.bundled, addresses⟩ signingOnly (.object outer) = .ok bytes →
        (∃ written, segmentsOf ⟨Registry.bundled, addresses⟩ signingOnly outer = .ok written ∧
          bytes = written.flatMap Segment.bytes ∧ AccountWritten addresses outer written) ∧
        ∀ field inner,
          Inside ⟨Registry.bundled, addresses⟩ signingOnly outer (field, .object inner) →
          field.kind = .object →
            ∃ written, segmentsOf ⟨Registry.bundled, addresses⟩ false inner = .ok written ∧
              written.flatMap Segment.bytes <:+: bytes ∧
              AccountWritten addresses inner written := by
  refine ⟨fun value => namesChange_iff, fun entries => changes_base58_iff, ?_, ?_⟩
  · intro addresses signingOnly before after first second changes firstStays secondStays
    simp only [encode, objectBytes, Json.asObject, Outcome.ok_bind]
    rw [segments_unread _ firstStays secondStays changes]
  · intro addresses signingOnly outer bytes distinct encoded
    constructor
    · obtain ⟨_, written, same, given, shown⟩ := objectBytes_eq_ok.mp encoded
      cases same
      have keys := (Json.distinctKeys_object.mp distinct).1
      exact ⟨written, given, shown, accountWritten_of_segments given keys⟩
    · intro field inner inside isObject
      obtain ⟨written, given, inBytes⟩ :=
        segments_of_inside Registry.bundled_sound encoded inside isObject
      have keys := (Json.distinctKeys_object.mp (distinctKeys_of_inside distinct inside)).1
      exact ⟨written, given, inBytes, accountWritten_of_segments given keys⟩

/-- A change of the validators with a memo that has an account of its own. -/
def changeWithMemo (account : Json) : List (String × Json) :=
  [("Account", account), ("Memo", .object [("Account", .string "")]),
    ("TransactionType", .string "+0102")]

/-- The account of the change is not looked at, and that of the memo is written whole. -/
theorem account_written_by_own_type_memo :
    encode Context.standard false (.object (changeWithMemo (.string "junk"))) =
        encode Context.standard false (.object (changeWithMemo (Json.ofNat 5))) ∧
      encode Context.standard false (.object (changeWithMemo (.string "junk"))) =
        .ok ([0x12, 0, 102, 0x81, 0, 0xEA, 0x81, 20] ++ List.replicate 20 0 ++ [0xE1]) ∧
      (∃ written, segmentsOf Context.standard false (changeWithMemo (.string "junk")) =
          .ok written ∧
        AccountWritten CheckedText.base58 (changeWithMemo (.string "junk")) written) ∧
      ∃ written, segmentsOf Context.standard false [("Account", .string "")] = .ok written ∧
        AccountWritten CheckedText.base58 [("Account", .string "")] written := by
  obtain ⟨_, typed, unread, levels⟩ := account_written_by_own_type
  have unextended : ∀ text : String, text.length ≠ 47 →
      Address.extended? CheckedText.base58 text = none := fun text size =>
    Address.extended?_of_length CheckedText.base58_distinctive size
  have changes : Changes CheckedText.base58 (changeWithMemo (.string "junk")) :=
    (typed _).mpr ⟨_, .text (by decide +kernel), rfl⟩
  have junkStays : Stays CheckedText.base58 (.string "junk") := by
    refine ⟨nofun, fun text same => ?_⟩
    cases same
    exact unextended _ (by decide)
  have fiveStays : Stays CheckedText.base58 (Json.ofNat 5) := ⟨nofun, nofun⟩
  have encoded : encode Context.standard false (.object (changeWithMemo (.string "junk"))) =
      .ok ([0x12, 0, 102, 0x81, 0, 0xEA, 0x81, 20] ++ List.replicate 20 0 ++ [0xE1]) :=
    Outcome.eq_ok_of_toOption (by decide +kernel)
  obtain ⟨⟨written, given, _, own⟩, inner⟩ :=
    levels CheckedText.base58 false _ _ (by decide) encoded
  have inside : Inside Context.standard false (changeWithMemo (.string "junk"))
      (⟨"Memo", "STObject", 14, 10, false, true, true⟩, .object [("Account", .string "")]) := by
    have present : ("Memo", Json.object [("Account", .string "")]) ∈
        changeWithMemo (.string "junk") := List.mem_cons_of_mem _ List.mem_cons_self
    exact .part (mem_canonicalFields_iff.mpr
      ⟨"Memo", mem_expanded_iff_supplied.mpr (.plain present nofun), rfl, rfl, nofun, nofun⟩)
  obtain ⟨memoWritten, memoGiven, _, memo⟩ := inner _ _ inside (by decide)
  exact ⟨unread CheckedText.base58 false [] _ _ _ changes junkStays fiveStays, encoded,
    ⟨written, given, own⟩, memoWritten, memoGiven, memo⟩

end LedgerWire.Object
