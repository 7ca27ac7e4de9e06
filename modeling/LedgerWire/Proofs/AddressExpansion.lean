import LedgerWire.Proofs.DistinctKeys
import LedgerWire.Proofs.SkippedEntries

/-!
# Extended addresses are transparent

An object with an extended address is encoded as the one that has the classic
address in its place and the tag in the field for tags, whatever else it holds:
to the same octets, or with the same error. The network of an address does not
count. A tag that has no field for it, or one with an entry already, is refused.
-/

namespace LedgerWire

/-! ## New values under a key -/

namespace Json

/-- The entries with this value under the key, at the place of the key. -/
def put (key : String) (value : Json) : List (String × Json) → List (String × Json)
  | [] => [(key, value)]
  | (other, held) :: rest =>
      if key < other then
        (key, value) :: (other, held) :: rest
      else if key = other then
        (key, value) :: rest
      else
        (other, held) :: put key value rest

variable {key : String} {value : Json} {entries : List (String × Json)}

private theorem keys_put :
    (put key value entries).map (·.1) = (addEntry key value entries).map (·.1) := by
  induction entries with
  | nil =>
      rfl
  | cons first rest inductionHypothesis =>
      obtain ⟨other, held⟩ := first
      rw [put, addEntry]
      split
      · rfl
      · split
        · rename_i same
          simp only [List.map_cons, same]
        · rw [List.map_cons, List.map_cons, inductionHypothesis]

private theorem ascending_put (ascending : Ascending entries) :
    Ascending (put key value entries) := by
  rw [Ascending, keys_put]
  exact ascending_addEntry ascending key value

private theorem lookup_put_of_ne {other : String} (differs : other ≠ key) :
    (put key value entries).lookup other = entries.lookup other := by
  have apart : (other == key) = false := beq_eq_false_iff_ne.mpr differs
  induction entries with
  | nil =>
      rw [put, List.lookup_cons, apart]
  | cons first rest inductionHypothesis =>
      obtain ⟨name, held⟩ := first
      rw [put]
      split
      · rw [List.lookup_cons, apart]
      · split
        · rename_i same
          rw [List.lookup_cons, List.lookup_cons, ← same, apart]
        · rw [List.lookup_cons, List.lookup_cons, inductionHypothesis]

/-- A value that is there gives way to the new one. -/
theorem put_of_mem {before after : List (String × Json)} {held : Json}
    (ascending : Ascending (before ++ (key, held) :: after)) :
    put key value (before ++ (key, held) :: after) = before ++ (key, value) :: after := by
  induction before with
  | nil =>
      rw [List.nil_append, put, if_neg (String.lt_irrefl key), if_pos rfl]
      rfl
  | cons first rest inductionHypothesis =>
      obtain ⟨other, otherHeld⟩ := first
      rw [Ascending, List.cons_append, List.map_cons, List.pairwise_cons] at ascending
      obtain ⟨below, others⟩ := ascending
      have lower : other < key := below key (by simp)
      have differs : key ≠ other := by
        rintro rfl
        exact String.lt_irrefl _ lower
      rw [List.cons_append, put, if_neg (String.lt_asymm lower), if_neg differs,
        inductionHypothesis others]
      rfl

/-- Where there is none, the value becomes one more entry. -/
theorem put_of_absent (value : Json) (absent : entries.lookup key = none) :
    ∃ front back, entries = front ++ back ∧
      put key value entries = front ++ (key, value) :: back := by
  induction entries with
  | nil =>
      exact ⟨[], [], rfl, rfl⟩
  | cons first rest inductionHypothesis =>
      obtain ⟨other, held⟩ := first
      have differs : key ≠ other := by
        rintro rfl
        rw [List.lookup_cons_self] at absent
        cases absent
      rw [List.lookup_cons, beq_eq_false_iff_ne.mpr differs] at absent
      obtain ⟨front, back, rfl, others⟩ := inductionHypothesis absent
      rw [put]
      split
      · exact ⟨[], _, rfl, rfl⟩
      · rw [others]
        exact ⟨(other, held) :: front, back, rfl, rfl⟩

end Json

namespace Object

/-! ## Expansion of one entry among others -/

section Expansion

variable {writing : CheckedText} {before after : List (String × Json)} {key : String}
  {first second : Json}

/-- An entry is expanded alike wherever its tag finds the same room. -/
theorem expandEntry_congr {left right : List (String × Json)} {entry : String × Json}
    (same : ∀ place, (left.lookup place).isSome = (right.lookup place).isSome) :
    expandEntry writing left entry = expandEntry writing right entry := by
  obtain ⟨name, value⟩ := entry
  cases value with
  | string text =>
      unfold expandEntry expandAddress
      simp only [same]
  | _ =>
      rfl

/-- The others do not see which value stands under a key. -/
theorem expandEntry_beside (entry : String × Json) :
    expandEntry writing (before ++ (key, first) :: after) entry =
      expandEntry writing (before ++ (key, second) :: after) entry := by
  apply expandEntry_congr
  intro place
  rw [List.lookup_append, List.lookup_append, List.lookup_cons, List.lookup_cons]
  cases place == key with
  | true =>
      simp
  | false =>
      rfl

/-- An entry is refused for its tag only. -/
theorem semantic_of_expandEntry {entries : List (String × Json)} {entry : String × Json}
    {fault : Error} (refused : expandEntry writing entries entry = .error fault) :
    fault.errorClass = .semantic := by
  unfold expandEntry at refused
  split at refused
  · split at refused
    · unfold expandAddress at refused
      dsimp only at refused
      split at refused
      · cases refused
      · split at refused
        · cases refused
          rfl
        · split at refused
          · cases refused
            rfl
          · cases refused
    · cases refused
  · cases refused

private theorem semantic_of_expand {entries : List (String × Json)} {fault : Error}
    (refused : expand writing entries = .error fault) : fault.errorClass = .semantic := by
  cases mapped : entries.mapM (expandEntry writing entries) with
  | error other =>
      rw [expand, mapped] at refused
      cases refused
      obtain ⟨entry, _, entryRefused⟩ := Outcome.exists_of_mapM_eq_error mapped
      exact semantic_of_expandEntry entryRefused
  | ok groups =>
      rw [expand, mapped] at refused
      cases refused

private theorem expand_congr_at
    (alike : expandEntry writing (before ++ (key, first) :: after) (key, first) =
      expandEntry writing (before ++ (key, second) :: after) (key, second)) :
    expand writing (before ++ (key, first) :: after) =
      expand writing (before ++ (key, second) :: after) := by
  have others : expandEntry writing (before ++ (key, first) :: after) =
      expandEntry writing (before ++ (key, second) :: after) :=
    funext expandEntry_beside
  rw [others] at alike
  simp only [expand, List.mapM_append, List.mapM_cons, others, alike]

/-- Two objects that differ under one key are expanded alike but for that entry, and
another entry is refused in both or in neither. -/
theorem expand_at {firstGroup secondGroup : List (String × Json)}
    (firstGiven : expandEntry writing (before ++ (key, first) :: after) (key, first) =
      .ok firstGroup)
    (secondGiven : expandEntry writing (before ++ (key, second) :: after) (key, second) =
      .ok secondGroup) :
    (∃ fault, expand writing (before ++ (key, first) :: after) = .error fault ∧
      expand writing (before ++ (key, second) :: after) = .error fault) ∨
    (expand writing (before ++ (key, first) :: after) =
        .ok (expanded writing before ++ (firstGroup ++ expanded writing after)) ∧
      expand writing (before ++ (key, second) :: after) =
        .ok (expanded writing before ++ (secondGroup ++ expanded writing after))) := by
  have others : expandEntry writing (before ++ (key, first) :: after) =
      expandEntry writing (before ++ (key, second) :: after) :=
    funext expandEntry_beside
  rw [others] at firstGiven
  simp only [expand, List.mapM_append, List.mapM_cons, others, firstGiven, secondGiven]
  cases frontMapped : before.mapM (expandEntry writing (before ++ (key, second) :: after)) with
  | error fault =>
      exact .inl ⟨fault, rfl, rfl⟩
  | ok front =>
      cases backMapped : after.mapM (expandEntry writing (before ++ (key, second) :: after)) with
      | error fault =>
          exact .inl ⟨fault, rfl, rfl⟩
      | ok back =>
          rw [← flatten_of_mapM frontMapped, ← flatten_of_mapM backMapped]
          apply Or.inr
          simp

end Expansion

/-! ## Addresses among entries -/

/-- No two accounts have one field for their tags. -/
theorem tagField?_inj {key other place : String} (first : tagField? key = some place)
    (second : tagField? other = some place) : key = other := by
  rcases tagField?_eq_some first with ⟨rfl, rfl⟩ | ⟨rfl, rfl⟩ <;>
    rcases tagField?_eq_some second with ⟨rfl, same⟩ | ⟨rfl, same⟩
  · rfl
  · exact absurd same (by decide)
  · exact absurd same (by decide)
  · rfl

section Addresses

variable {writing : CheckedText} (lawful : writing.Lawful) {entries : List (String × Json)}
  {key : String} {account : AccountId} {test : Bool}

/-- The text of an extended address. -/
def extendedJson (writing : CheckedText) (address : ExtendedAddress) : Json :=
  .string (Address.encodeExtended writing address)

include lawful

private theorem expandEntry_extended (address : ExtendedAddress) :
    expandEntry writing entries (key, extendedJson writing address) =
      expandAddress writing entries key address := by
  have found : Address.extended? writing (Address.encodeExtended writing address) = some address :=
    (Address.extended?_eq_some lawful).mpr rfl
  simp only [extendedJson, expandEntry, found]

private theorem expandEntry_classic :
    expandEntry writing entries (key, Account.toJson writing account) =
      .ok [(key, Account.toJson writing account)] := by
  simp only [Account.toJson, expandEntry, Address.extended?_encodeClassic lawful]

private theorem expandEntry_untagged :
    expandEntry writing entries (key, extendedJson writing ⟨account, none, test⟩) =
      .ok [(key, Account.toJson writing account)] := by
  rw [expandEntry_extended lawful]
  rfl

private theorem expandEntry_tagged {place : String} {tag : UInt32}
    (isPlace : tagField? key = some place) (absent : entries.lookup place = none) :
    expandEntry writing entries (key, extendedJson writing ⟨account, some tag, test⟩) =
      .ok [(key, Account.toJson writing account), (place, Json.ofNat tag.toNat)] := by
  rw [expandEntry_extended lawful]
  simp only [expandAddress, isPlace, absent, Option.isSome_none, Bool.false_eq_true, if_false]
  rfl

end Addresses

/-! ## Expanded entries in another order -/

section Order

variable {context : Context} {left right : List (String × Json)}

/-- Over fields that differ in their ordinals the order of entries does not count. -/
theorem canonicalFields_perm_eq {registry : Registry} {signingOnly : Bool}
    (distinct : Registry.Distinct registry.fields) (keys : (left.map (·.1)).Nodup)
    (same : left.Perm right) :
    canonicalFields registry signingOnly left = canonicalFields registry signingOnly right := by
  have written : (writtenFields registry signingOnly left).Perm
      (writtenFields registry signingOnly right) := same.filterMap _
  have order := (canonicalFields_perm registry signingOnly left).trans
    (written.trans (canonicalFields_perm registry signingOnly right).symm)
  refine order.eq_of_pairwise (fun one other _ _ below above => ?_)
    (canonicalFields_ascending distinct keys)
    (canonicalFields_ascending distinct ((same.map _).nodup_iff.mp keys))
  exact absurd above (Nat.lt_asymm below)

private theorem changesValidators_perm {registry : Registry} (keys : (left.map (·.1)).Nodup)
    (same : left.Perm right) :
    changesValidators registry left = changesValidators registry right := by
  rw [changesValidators, changesValidators, lookup_perm keys same]

private theorem segments_perm {writeValue : ValueWriter} {signingOnly : Bool}
    {leftExpanded rightExpanded : List (String × Json)}
    (distinct : Registry.Distinct context.registry.fields)
    (leftGiven : expand context.addresses left = .ok leftExpanded)
    (rightGiven : expand context.addresses right = .ok rightExpanded)
    (keys : (leftExpanded.map (·.1)).Nodup) (same : leftExpanded.Perm rightExpanded) :
    segments context.registry context.addresses writeValue signingOnly left =
      segments context.registry context.addresses writeValue signingOnly right := by
  rw [segments, segments, leftGiven, rightGiven, Outcome.ok_bind, Outcome.ok_bind,
    canonicalFields_perm_eq distinct keys same, changesValidators_perm keys same]

end Order

/-! ## Objects -/

/-- The entries with a classic address in its place, and its tag in the field for it. -/
def spelledOut (writing : CheckedText) (key place : String) (account : AccountId) (tag : UInt32)
    (entries : List (String × Json)) : List (String × Json) :=
  Json.put place (Json.ofNat tag.toNat) (Json.put key (Account.toJson writing account) entries)

private theorem ascending_spelledOut {writing : CheckedText} {key place : String}
    {account : AccountId} {tag : UInt32} {entries : List (String × Json)}
    (ascending : Json.Ascending entries) :
    Json.Ascending (spelledOut writing key place account tag entries) :=
  Json.ascending_put (Json.ascending_put ascending)

section Objects

variable {context : Context} {signingOnly : Bool} {entries : List (String × Json)}

private theorem encode_of_segments {left right : List (String × Json)}
    (same : segments context.registry context.addresses (fieldValueBytes context) signingOnly left =
      segments context.registry context.addresses (fieldValueBytes context) signingOnly right) :
    encode context signingOnly (.object left) = encode context signingOnly (.object right) := by
  simp only [encode, objectBytes, Json.asObject, Outcome.ok_bind, same]

private theorem encode_of_expand {left right : List (String × Json)}
    (same : expand context.addresses left = expand context.addresses right) :
    encode context signingOnly (.object left) = encode context signingOnly (.object right) := by
  apply encode_of_segments
  rw [segments, segments, same]

variable (lawful : context.addresses.Lawful) (ascending : Json.Ascending entries)
  {key : String} {account : AccountId} {test : Bool}

section Replacing

include lawful ascending

/-- An address without a tag is as good as the classic one. -/
theorem encode_put_untagged
    (held : entries.lookup key = some (extendedJson context.addresses ⟨account, none, test⟩)) :
    encode context signingOnly (.object entries) =
      encode context signingOnly
        (.object (Json.put key (Account.toJson context.addresses account) entries)) := by
  obtain ⟨before, after, rfl, _⟩ := List.lookup_eq_some_iff.mp held
  rw [Json.put_of_mem ascending]
  apply encode_of_expand
  apply expand_congr_at
  rw [expandEntry_untagged lawful, expandEntry_classic lawful]

/-- The network of an address does not count. -/
theorem encode_put_network {tag : Option UInt32}
    (held : entries.lookup key = some (extendedJson context.addresses ⟨account, tag, test⟩)) :
    encode context signingOnly (.object entries) =
      encode context signingOnly (.object
        (Json.put key (extendedJson context.addresses ⟨account, tag, !test⟩) entries)) := by
  obtain ⟨before, after, rfl, _⟩ := List.lookup_eq_some_iff.mp held
  rw [Json.put_of_mem ascending]
  apply encode_of_expand
  apply expand_congr_at
  calc
    _ = _ := expandEntry_beside _
    _ = _ := by
      rw [expandEntry_extended lawful, expandEntry_extended lawful]
      rfl

end Replacing

/-- The tag that is spelled out is one more entry among those with the classic
address. -/
theorem spelledOut_eq (writing : CheckedText) (account : AccountId) (tag : UInt32)
    {key place : String} (isPlace : tagField? key = some place)
    {before after : List (String × Json)} {held : Json}
    (ascending : Json.Ascending (before ++ (key, held) :: after))
    (absent : (before ++ (key, held) :: after).lookup place = none) :
    ∃ front back,
      before ++ (key, Account.toJson writing account) :: after = front ++ back ∧
      spelledOut writing key place account tag (before ++ (key, held) :: after) =
        front ++ (place, Json.ofNat tag.toNat) :: back ∧
      ((front ++ back).map (·.1)).Nodup := by
  have differs : place ≠ key := by
    rcases tagField?_eq_some isPlace with ⟨rfl, rfl⟩ | ⟨rfl, rfl⟩
    · decide
    · decide
  have classic : Json.put key (Account.toJson writing account)
      (before ++ (key, held) :: after) =
        before ++ (key, Account.toJson writing account) :: after :=
    Json.put_of_mem ascending
  have stillAbsent : (before ++ (key, Account.toJson writing account) :: after).lookup
      place = none := by
    rw [← classic, Json.lookup_put_of_ne differs, absent]
  obtain ⟨front, back, divided, tagged⟩ :=
    Json.put_of_absent (Json.ofNat tag.toNat) stillAbsent
  refine ⟨front, back, divided, ?_, ?_⟩
  · rw [spelledOut, classic, tagged]
  · rw [← divided, ← classic]
    exact Json.nodup_of_ascending (Json.ascending_put ascending)

include lawful

/-- Beside a classic address no entry puts a tag into the field for its tag. -/
theorem unclaimed_of_classic {place : String} (isPlace : tagField? key = some place)
    (keys : (entries.map (·.1)).Nodup)
    (classic : (key, Account.toJson context.addresses account) ∈ entries) :
    ∀ entry ∈ entries, CarriesTag context.addresses entry.2 → tagField? entry.1 ≠ some place := by
  rintro ⟨name, value⟩ member ⟨text, address, _, isText, extended, _⟩ claims
  have found := lookup_of_mem keys member
  rw [show name = key from tagField?_inj claims isPlace, lookup_of_mem keys classic] at found
  cases (Option.some.inj found).trans isText
  rw [Address.extended?_encodeClassic lawful] at extended
  cases extended

include ascending

/-- An object and the one that spells out its tagged address are refused alike, or their
expansions differ in order only: both are compared with the object that has the classic
address and no tag. -/
theorem expand_spelledOut {place : String} {tag : UInt32} (isPlace : tagField? key = some place)
    (held : entries.lookup key = some (extendedJson context.addresses ⟨account, some tag, test⟩))
    (absent : entries.lookup place = none) :
    (∃ fault, expand context.addresses entries = .error fault ∧
      expand context.addresses (spelledOut context.addresses key place account tag entries) =
        .error fault) ∨
    ∃ left right, expand context.addresses entries = .ok left ∧
      expand context.addresses (spelledOut context.addresses key place account tag entries) =
        .ok right ∧
      left.Perm right := by
  obtain ⟨before, after, rfl, _⟩ := List.lookup_eq_some_iff.mp held
  obtain ⟨front, back, divided, spelled, keys⟩ :=
    spelledOut_eq context.addresses account tag isPlace ascending absent
  have classicHere : (key, Account.toJson context.addresses account) ∈ front ++ back := by
    rw [← divided]
    exact List.mem_append_right before List.mem_cons_self
  have alone : ∀ entries, expandEntry context.addresses entries (place, Json.ofNat tag.toNat) =
      .ok [(place, Json.ofNat tag.toNat)] := fun _ => rfl
  rw [spelled]
  rcases expand_at (expandEntry_tagged lawful isPlace absent) (expandEntry_classic lawful) with
    ⟨fault, refused, classicRefused⟩ | ⟨given, classicGiven⟩ <;>
    rcases expand_insert alone (unclaimed_of_classic lawful isPlace keys classicHere) with
      ⟨other, spelledRefused, alike⟩ | ⟨alike, spelledGiven⟩
  · rw [← divided, classicRefused] at alike
    cases alike
    exact .inl ⟨fault, refused, spelledRefused⟩
  · rw [← divided, classicRefused] at alike
    cases alike
  · rw [← divided, classicGiven] at alike
    cases alike
  · rw [← divided, classicGiven] at alike
    have same := Except.ok.inj alike
    refine .inr ⟨_, _, given, spelledGiven, ?_⟩
    have moved : (expanded context.addresses before ++ [(key, Account.toJson context.addresses
        account)] ++ (place, Json.ofNat tag.toNat) :: expanded context.addresses after).Perm _ :=
      List.perm_middle
    refine List.Perm.trans ?_ List.perm_middle.symm
    rw [← same]
    simpa using moved

/-- An address with a tag is as good as the classic one and the tag in its field. -/
theorem encode_spelledOut (distinct : Registry.Distinct context.registry.fields) {place : String}
    {tag : UInt32} (isPlace : tagField? key = some place)
    (held : entries.lookup key = some (extendedJson context.addresses ⟨account, some tag, test⟩))
    (absent : entries.lookup place = none) :
    encode context signingOnly (.object entries) =
      encode context signingOnly
        (.object (spelledOut context.addresses key place account tag entries)) := by
  rcases expand_spelledOut lawful ascending isPlace held absent with
    ⟨fault, refused, alike⟩ | ⟨left, right, given, spelled, same⟩
  · exact encode_of_expand (refused.trans alike.symm)
  · have keys := nodup_keys_expanded given (Json.nodup_of_ascending ascending)
    rw [← expand_eq_ok given] at keys
    exact encode_of_segments (segments_perm distinct given spelled keys same)

/-- With two tagged addresses both of them are spelled out. -/
theorem encode_spelledOut_both (distinct : Registry.Distinct context.registry.fields)
    {sender receiver : AccountId} {senderTag receiverTag : UInt32} {senderTest receiverTest : Bool}
    (sent : entries.lookup "Account" =
      some (extendedJson context.addresses ⟨sender, some senderTag, senderTest⟩))
    (received : entries.lookup "Destination" =
      some (extendedJson context.addresses ⟨receiver, some receiverTag, receiverTest⟩))
    (sourceFree : entries.lookup "SourceTag" = none)
    (destinationFree : entries.lookup "DestinationTag" = none) :
    encode context signingOnly (.object entries) =
      encode context signingOnly (.object
        (spelledOut context.addresses "Destination" "DestinationTag" receiver receiverTag
          (spelledOut context.addresses "Account" "SourceTag" sender senderTag entries))) := by
  have others : ∀ key, key ≠ "Account" → key ≠ "SourceTag" →
      (spelledOut context.addresses "Account" "SourceTag" sender senderTag entries).lookup key =
        entries.lookup key := by
    intro key notAccount notTag
    rw [spelledOut, Json.lookup_put_of_ne notTag, Json.lookup_put_of_ne notAccount]
  have stillReceived := (others "Destination" (by decide) (by decide)).trans received
  have stillFree := (others "DestinationTag" (by decide) (by decide)).trans destinationFree
  calc
    _ = _ := encode_spelledOut lawful ascending distinct rfl sent sourceFree
    _ = _ := encode_spelledOut lawful (ascending_spelledOut ascending) distinct rfl stillReceived
      stillFree

omit ascending in
/-- A tag is refused where it has no field for it, or the field has an entry. -/
theorem encode_refused {tag : UInt32}
    (held : entries.lookup key = some (extendedJson context.addresses ⟨account, some tag, test⟩))
    (blocked : ∀ place, tagField? key = some place → (entries.lookup place).isSome = true) :
    ∃ fault, encode context signingOnly (.object entries) = .error fault ∧
      fault.errorClass = .semantic := by
  have refused : ∃ fault, expandEntry context.addresses entries
      (key, extendedJson context.addresses ⟨account, some tag, test⟩) = .error fault := by
    rw [expandEntry_extended lawful]
    cases found : tagField? key with
    | none =>
        exact ⟨.unexpectedTag key, by simp only [expandAddress, found]⟩
    | some place =>
        exact ⟨.tagConflict key place, by
          simp only [expandAddress, found, blocked place found, if_true]⟩
  obtain ⟨_, entryRefused⟩ := refused
  obtain ⟨fault, allRefused⟩ := expand_error_of_mem (mem_of_lookup held) entryRefused
  refine ⟨fault, ?_, semantic_of_expand allRefused⟩
  simp only [encode, objectBytes, Json.asObject, segments, allRefused, Outcome.ok_bind,
    Outcome.error_bind]

/-- Extended addresses are transparent. In the whole encoding and in the one for signing, an
object with a tagged address under a key with a field for tags that is free, or under both
such keys, has the octets or the error of the object that spells out the classic address and
the tag. Without a tag an address may stand for the classic one under any key, and its network
never counts. An object where the field for the tag is not free, or there is none, is
refused. -/
theorem encode_extended_addresses (distinct : Registry.Distinct context.registry.fields)
    (signingOnly : Bool) :
    (∀ key place account tag test, tagField? key = some place →
      entries.lookup key = some (extendedJson context.addresses ⟨account, some tag, test⟩) →
      entries.lookup place = none →
      encode context signingOnly (.object entries) =
        encode context signingOnly
          (.object (spelledOut context.addresses key place account tag entries))) ∧
    (∀ sender senderTag senderTest receiver receiverTag receiverTest,
      entries.lookup "Account" =
        some (extendedJson context.addresses ⟨sender, some senderTag, senderTest⟩) →
      entries.lookup "Destination" =
        some (extendedJson context.addresses ⟨receiver, some receiverTag, receiverTest⟩) →
      entries.lookup "SourceTag" = none → entries.lookup "DestinationTag" = none →
      encode context signingOnly (.object entries) =
        encode context signingOnly (.object
          (spelledOut context.addresses "Destination" "DestinationTag" receiver receiverTag
            (spelledOut context.addresses "Account" "SourceTag" sender senderTag entries)))) ∧
    (∀ key account test,
      entries.lookup key = some (extendedJson context.addresses ⟨account, none, test⟩) →
      encode context signingOnly (.object entries) =
        encode context signingOnly
          (.object (Json.put key (Account.toJson context.addresses account) entries))) ∧
    (∀ key account tag test,
      entries.lookup key = some (extendedJson context.addresses ⟨account, tag, test⟩) →
      encode context signingOnly (.object entries) =
        encode context signingOnly (.object
          (Json.put key (extendedJson context.addresses ⟨account, tag, !test⟩) entries))) ∧
    ∀ key account tag test,
      entries.lookup key = some (extendedJson context.addresses ⟨account, some tag, test⟩) →
      (∀ place, tagField? key = some place → (entries.lookup place).isSome = true) →
      ∃ fault, encode context signingOnly (.object entries) = .error fault ∧
        fault.errorClass = .semantic := by
  refine ⟨?_, ?_, ?_, ?_, ?_⟩
  · intro key place account tag test isPlace held absent
    exact encode_spelledOut lawful ascending distinct isPlace held absent
  · intro sender senderTag senderTest receiver receiverTag receiverTest sent received source
      destination
    exact encode_spelledOut_both lawful ascending distinct sent received source destination
  · intro key account test held
    exact encode_put_untagged lawful ascending held
  · intro key account tag test held
    exact encode_put_network lawful ascending held
  · intro key account tag test held blocked
    exact encode_refused lawful held blocked

end Objects

/-- A payment between two tagged addresses, the receiver's on the test network. -/
def taggedPayment : List (String × Json) :=
  [("Account", extendedJson CheckedText.base58 ⟨Hash.zero 20, some 12, false⟩),
    ("Destination", extendedJson CheckedText.base58 ⟨Hash.zero 20, some 7, true⟩),
    ("Owner", extendedJson CheckedText.base58 ⟨Hash.zero 20, none, false⟩)]

/-- The payment is encoded as the one that spells both tags out, with the owner's address in
any form, and it is refused with a tag for the sender beside it. -/
theorem encode_extended_addresses_payment :
    encode Context.standard true (.object taggedPayment) =
        encode Context.standard true (.object
          (spelledOut CheckedText.base58 "Destination" "DestinationTag" (Hash.zero 20) 7
            (spelledOut CheckedText.base58 "Account" "SourceTag" (Hash.zero 20) 12
              taggedPayment))) ∧
      encode Context.standard true (.object taggedPayment) =
        encode Context.standard true (.object
          (Json.put "Owner" (Account.toJson CheckedText.base58 (Hash.zero 20)) taggedPayment)) ∧
      encode Context.standard true (.object taggedPayment) =
        encode Context.standard true (.object (Json.put "Destination"
          (extendedJson CheckedText.base58 ⟨Hash.zero 20, some 7, false⟩) taggedPayment)) ∧
      ∃ fault, encode Context.standard true
        (.object (taggedPayment ++ [("SourceTag", Json.ofNat 12)])) = .error fault := by
  have ascending : Json.Ascending taggedPayment := by decide
  have ascendingWith : Json.Ascending (taggedPayment ++ [("SourceTag", Json.ofNat 12)]) := by
    decide
  have lawful : Context.standard.addresses.Lawful := CheckedText.base58_lawful
  have distinct : Registry.Distinct Context.standard.registry.fields := Registry.bundled_distinct
  obtain ⟨_, both, untagged, network, _⟩ :=
    encode_extended_addresses lawful ascending distinct true
  obtain ⟨_, _, _, _, refused⟩ := encode_extended_addresses lawful ascendingWith distinct true
  refine ⟨both (Hash.zero 20) 12 false (Hash.zero 20) 7 true rfl rfl rfl rfl,
    untagged "Owner" (Hash.zero 20) false rfl,
    network "Destination" (Hash.zero 20) (some 7) true rfl, ?_⟩
  obtain ⟨fault, failed, _⟩ := refused "Account" (Hash.zero 20) 12 false rfl fun place found => by
    cases found
    rfl
  exact ⟨fault, failed⟩

end Object

end LedgerWire
