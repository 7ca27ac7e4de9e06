import LedgerWire.Proofs.Entries
import LedgerWire.Proofs.Loading

/-!
# Which fields are written

Of an object the entries with serialized fields are written, and with them the
tags of its extended addresses, each field once and in ascending order. No
registry that can be loaded and no choice of keys makes two of them one.
-/

namespace LedgerWire.Object

/-! ## Entries that are supplied -/

/-- What an object supplies for writing: its entries, with classic addresses in
place of extended ones, and the tags of these. -/
inductive Supplied (writing : CheckedText) (entries : List (String × Json)) :
    String → Json → Prop
  | plain {key : String} {value : Json} (member : (key, value) ∈ entries)
      (classic : ∀ text, value = .string text → Address.extended? writing text = none) :
      Supplied writing entries key value
  | address {key text : String} {address : ExtendedAddress}
      (member : (key, .string text) ∈ entries)
      (extended : Address.extended? writing text = some address) :
      Supplied writing entries key (.string (Address.encodeClassic writing address.account))
  | tag {key text tagField : String} {address : ExtendedAddress} {tag : UInt32}
      (member : (key, .string text) ∈ entries)
      (extended : Address.extended? writing text = some address)
      (tagged : address.tag = some tag) (place : tagField? key = some tagField) :
      Supplied writing entries tagField (Json.ofNat tag.toNat)

variable {writing : CheckedText} {entries : List (String × Json)}

theorem mem_classicEntries_iff {key shownKey : String} {address : ExtendedAddress}
    {shown : Json} :
    (shownKey, shown) ∈ classicEntries writing key address ↔
      (shownKey = key ∧ shown = .string (Address.encodeClassic writing address.account)) ∨
        ∃ tag, address.tag = some tag ∧ tagField? key = some shownKey ∧
          shown = Json.ofNat tag.toNat := by
  unfold classicEntries
  cases tagged : address.tag with
  | none =>
      simp
  | some tag =>
      cases place : tagField? key with
      | none =>
          simp
      | some tagField =>
          simp [eq_comm (a := tagField)]

private theorem supplied_of_mem_replaced {origin shown : String × Json} (member : origin ∈ entries)
    (inPlace : shown ∈ replaced writing origin) : Supplied writing entries shown.1 shown.2 := by
  unfold replaced at inPlace
  split at inPlace
  · rename_i key text
    split at inPlace
    · rename_i classic
      rw [List.mem_singleton.mp inPlace]
      apply Supplied.plain member
      intro other same
      cases same
      exact classic
    · rename_i address extended
      obtain ⟨shownKey, value⟩ := shown
      rcases mem_classicEntries_iff.mp inPlace with ⟨rfl, rfl⟩ | ⟨tag, tagged, place, rfl⟩
      · exact Supplied.address member extended
      · exact Supplied.tag member extended tagged place
  · rename_i noText
    rw [List.mem_singleton.mp inPlace]
    apply Supplied.plain member
    intro text same
    exact (noText origin.1 text (Prod.ext rfl same)).elim

/-- A value is an extended address or no such. -/
theorem classic_or_extended (writing : CheckedText) (value : Json) :
    (∀ text, value = .string text → Address.extended? writing text = none) ∨
      ∃ text address, value = .string text ∧ Address.extended? writing text = some address := by
  cases value with
  | string text =>
      cases extended : Address.extended? writing text with
      | none =>
          apply Or.inl
          intro other same
          cases same
          exact extended
      | some address =>
          exact .inr ⟨text, address, rfl, extended⟩
  | _ =>
      exact .inl fun text => nofun

theorem replaced_of_classic {key : String} {value : Json}
    (classic : ∀ text, value = .string text → Address.extended? writing text = none) :
    replaced writing (key, value) = [(key, value)] := by
  cases value with
  | string text =>
      simp only [replaced, classic text rfl]
  | _ =>
      rfl

/-- The entries after expansion are those that the object supplies. -/
theorem mem_expanded_iff_supplied {key : String} {value : Json} :
    (key, value) ∈ expanded writing entries ↔ Supplied writing entries key value := by
  constructor
  · intro member
    obtain ⟨origin, present, inPlace⟩ := List.mem_flatMap.mp member
    exact supplied_of_mem_replaced present inPlace
  · intro supplied
    apply List.mem_flatMap.mpr
    cases supplied with
    | plain member classic =>
        refine ⟨_, member, ?_⟩
        rw [replaced_of_classic classic]
        exact List.mem_singleton_self _
    | address member extended =>
        refine ⟨_, member, ?_⟩
        simp only [replaced, extended]
        exact mem_classicEntries_iff.mpr (.inl ⟨rfl, rfl⟩)
    | tag member extended tagged place =>
        refine ⟨_, member, ?_⟩
        simp only [replaced, extended]
        exact mem_classicEntries_iff.mpr (.inr ⟨_, tagged, place, rfl⟩)

/-! ## Entries that are kept -/

/-- Whether an entry is written, and for which field. -/
structure Kept (registry : Registry) (signingOnly : Bool) (key : String) (value : Json)
    (field : Field) : Prop where
  known : registry.field? key = some field
  serialized : field.serialized = true
  nonNull : value ≠ .null
  signing : signingOnly = true → field.signing = true

variable {registry : Registry} {signingOnly : Bool}

theorem writtenField?_eq_some_iff {key : String} {value : Json} {field : Field} :
    writtenField? registry signingOnly (key, value) = some field ↔
      Kept registry signingOnly key value field := by
  by_cases isNull : value = .null
  · subst isNull
    constructor
    · intro impossible
      cases impossible
    · intro kept
      exact absurd rfl kept.nonNull
  · have looked : writtenField? registry signingOnly (key, value) =
        (registry.field? key).filter fun field =>
          field.serialized && (!signingOnly || field.signing) := by
      unfold writtenField?
      split
      · rename_i same
        exact absurd (congrArg Prod.snd same) isNull
      · rename_i same
        cases same
        rfl
    rw [looked, Option.filter_eq_some_iff, Bool.and_eq_true]
    constructor
    · rintro ⟨known, serialized, covered⟩
      refine ⟨known, serialized, isNull, ?_⟩
      rintro rfl
      exact covered
    · intro kept
      refine ⟨kept.known, kept.serialized, ?_⟩
      cases signingOnly with
      | true =>
          exact kept.signing rfl
      | false =>
          rfl

theorem mem_writtenFields_iff {field : Field} {value : Json} :
    (field, value) ∈ writtenFields registry signingOnly entries ↔
      ∃ key, (key, value) ∈ entries ∧ Kept registry signingOnly key value field := by
  rw [writtenFields, List.mem_filterMap]
  constructor
  · rintro ⟨⟨key, held⟩, member, found⟩
    obtain ⟨_, written, same⟩ := Option.map_eq_some_iff.mp found
    cases same
    exact ⟨key, member, writtenField?_eq_some_iff.mp written⟩
  · rintro ⟨key, member, kept⟩
    refine ⟨_, member, ?_⟩
    rw [writtenField?_eq_some_iff.mpr kept]
    rfl

theorem mem_canonicalFields_iff {field : Field} {value : Json} :
    (field, value) ∈ canonicalFields registry signingOnly entries ↔
      ∃ key, (key, value) ∈ entries ∧ Kept registry signingOnly key value field := by
  rw [(canonicalFields_perm _ _ _).mem_iff, mem_writtenFields_iff]

/-! ## Fields in strictly ascending order -/

/-- Fields with distinct names are distinct by their ordinals as well, since they
come from a registry. -/
theorem canonicalFields_ascending (distinct : Registry.Distinct registry.fields)
    (keys : (entries.map (·.1)).Nodup) :
    (canonicalFields registry signingOnly entries).Pairwise fun left right =>
      left.1.ordinal < right.1.ordinal := by
  have order := canonicalFields_perm registry signingOnly entries
  have names : ((canonicalFields registry signingOnly entries).map (·.1.name)).Nodup :=
    (order.map _).nodup_iff.mpr ((names_sublist registry signingOnly entries).nodup keys)
  have origin : ∀ item ∈ canonicalFields registry signingOnly entries,
      item.1 ∈ registry.fields.filter (·.serialized) := by
    intro item member
    obtain ⟨_, known, serialized, _⟩ := mem_writtenFields (order.mem_iff.mp member)
    exact List.mem_filter.mpr ⟨List.mem_of_find?_eq_some known, serialized⟩
  have apart := List.pairwise_map.mp names
  have both := (canonicalFields_pairwise registry signingOnly entries).and apart
  refine both.imp_of_mem fun {left right} leftMember rightMember related => ?_
  apply Nat.lt_of_le_of_ne related.1
  intro same
  have fields := List.inj_on_of_nodup_map distinct.ordinals (origin left leftMember)
    (origin right rightMember) same
  exact related.2 (congrArg Field.name fields)

/-- An object that is encoded, whole or for signing, over a registry that could be
loaded, is the row of the segments of certain fields. Their ordinals strictly
ascend, and they are those of the entries that are kept of what the object
supplies. -/
theorem fields_of_encode {text : String} {addresses : CheckedText}
    (loaded : Registry.Loads text registry) (keys : (entries.map (·.1)).Nodup)
    {bytes : Bytes}
    (encoded : encode ⟨registry, addresses⟩ signingOnly (.object entries) = .ok bytes) :
    ∃ items written,
      bytes = written.flatMap Segment.bytes ∧
      List.Forall₂ (fun item one => one.field = item.1 ∧
        segment (fieldValueBytes ⟨registry, addresses⟩) item.1 item.2
          (changesValidators registry (expanded addresses entries) &&
            item.1.name == "Account") = .ok one) items written ∧
      items.Pairwise (fun left right => left.1.ordinal < right.1.ordinal) ∧
      ∀ field value, (field, value) ∈ items ↔
        ∃ key, Supplied addresses entries key value ∧
          Kept registry signingOnly key value field := by
  obtain ⟨_, written, same, given, rfl⟩ := objectBytes_eq_ok.mp encoded
  cases same
  obtain ⟨⟨result, expands⟩, related⟩ := segments_eq_ok.mp given
  refine ⟨canonicalFields registry signingOnly (expanded addresses entries), written, rfl,
    ?_, ?_, ?_⟩
  · refine related.imp fun item one segmented => ?_
    exact ⟨(segment_eq_ok.mp segmented).2.1, segmented⟩
  · apply canonicalFields_ascending (Registry.distinct_of_loads loaded)
    exact nodup_keys_expanded expands keys
  · intro field value
    rw [(canonicalFields_perm _ _ _).mem_iff, mem_writtenFields_iff]
    apply exists_congr
    intro key
    rw [mem_expanded_iff_supplied]

/-- Definitions of four fields, each described by its parts in order. -/
def fewFields : String :=
  "[\x7b\"UInt32\":2,\"Blob\":7,\"AccountID\":8\x7d,\x7b\x7d,[" ++
    "[\"Account\",[1,true,true,true,\"AccountID\"]]," ++
    "[\"Flags\",[2,false,true,true,\"UInt32\"]]," ++
    "[\"SourceTag\",[3,false,true,true,\"UInt32\"]]," ++
    "[\"TxnSignature\",[4,true,true,false,\"Blob\"]]],\x7b\x7d,\x7b\x7d]"

def sourceTagField : Field := ⟨"SourceTag", "UInt32", 2, 3, false, true, true⟩

/-- Entries of which the note and the signature are not signed. The address is that of the
zero account, and the tag twelve is in it. -/
def fewEntries : List (String × Json) :=
  [("Account", .string "X7TYFRtYHMcHtT2qNycMwgXzFbcRvEmP1m99C3gzRyGTY1F"),
    ("Flags", Json.ofNat 0), ("Note", .string "unknown"), ("TxnSignature", .string "AB")]

/-- The flags are signed, the tag of the address and the account, in this order. -/
theorem fields_of_encode_flags :
    ∃ registry, Registry.ofText fewFields = .ok registry ∧
      encode ⟨registry, CheckedText.base58⟩ true (.object fewEntries) =
        .ok ([0x22, 0, 0, 0, 0, 0x23, 0, 0, 0, 12, 0x81, 20] ++ List.replicate 20 0) ∧
      ∃ items : List (Field × Json),
        items.Pairwise (fun left right => left.1.ordinal < right.1.ordinal) ∧
        (sourceTagField, Json.ofNat 12) ∈ items ∧
        (∀ field value, field.name = "TxnSignature" → (field, value) ∉ items) ∧
        ∀ field value, (field, value) ∈ items ↔
          ∃ key, Supplied CheckedText.base58 fewEntries key value ∧
            Kept registry true key value field := by
  have evaluated : ((Registry.ofText fewFields).toOption.any fun registry =>
      (encode ⟨registry, CheckedText.base58⟩ true (.object fewEntries)).toOption ==
        some ([0x22, 0, 0, 0, 0, 0x23, 0, 0, 0, 12, 0x81, 20] ++ List.replicate 20 0) &&
      registry.field? "SourceTag" == some sourceTagField &&
      (registry.field? "TxnSignature").all (!·.signing)) = true := by
    decide +kernel
  have tagged : Address.extended? CheckedText.base58
      "X7TYFRtYHMcHtT2qNycMwgXzFbcRvEmP1m99C3gzRyGTY1F" = some ⟨Hash.zero 20, some 12, false⟩ := by
    decide +kernel
  obtain ⟨registry, found, same⟩ := (Option.any_eq_true _ _).mp evaluated
  simp only [Bool.and_eq_true, beq_iff_eq] at same
  obtain ⟨⟨octets, place⟩, unsigned⟩ := same
  have loaded := Outcome.eq_ok_of_toOption found
  have encoded := Outcome.eq_ok_of_toOption octets
  obtain ⟨items, _, _, _, ascending, kept⟩ :=
    fields_of_encode (Registry.loads_of_ofText loaded) (by decide) encoded
  refine ⟨registry, loaded, encoded, items, ascending, ?_, ?_, kept⟩
  · have supplied : Supplied CheckedText.base58 fewEntries "SourceTag" (Json.ofNat 12) :=
      Supplied.tag List.mem_cons_self tagged rfl rfl
    exact (kept _ _).mpr ⟨"SourceTag", supplied, place, rfl, nofun, fun _ => rfl⟩
  · rintro field value named member
    obtain ⟨key, _, known, _, _, signing⟩ := (kept field value).mp member
    have same : field.name = key := by simpa using List.find?_some known
    rw [← same, named] at known
    rw [known] at unsigned
    simp [signing rfl] at unsigned

end LedgerWire.Object
