import LedgerWire.Proofs.StandardRegistry
import LedgerWire.Proofs.WritingAgain
import LedgerWire.Signing.Payload

/-!
# What a signature covers

A payload is the encoding of the transaction without the segments of the fields
that a signature does not cover. What stands in those fields has no part in it.
-/

namespace LedgerWire

namespace Object

/-! ## Leaving fields out -/

private theorem orderedInsert_of_lowest {item : Field × Json} {items : List (Field × Json)}
    (lowest : ∀ other ∈ items, NotAbove item other) :
    items.orderedInsert NotAbove item = item :: items := by
  cases items with
  | nil =>
      rfl
  | cons first rest =>
      exact List.orderedInsert_cons_of_le _ rest (lowest first List.mem_cons_self)

/-- Of ascending fields some may be left out before another is inserted or after. -/
theorem filter_orderedInsert (kept : Field × Json → Bool) (item : Field × Json)
    {items : List (Field × Json)} (ascending : items.Pairwise NotAbove) :
    (items.orderedInsert NotAbove item).filter kept =
      if kept item then (items.filter kept).orderedInsert NotAbove item
      else items.filter kept := by
  induction items with
  | nil =>
      exact List.filter_cons
  | cons first rest inductionHypothesis =>
      obtain ⟨below, others⟩ := List.pairwise_cons.mp ascending
      by_cases front : NotAbove item first
      · have lowest : ∀ other ∈ (first :: rest).filter kept, NotAbove item other := by
          intro other member
          rcases List.mem_cons.mp (List.mem_filter.mp member).1 with rfl | later
          · exact front
          · exact Nat.le_trans front (below other later)
        rw [List.orderedInsert_cons_of_le _ rest front, List.filter_cons,
          orderedInsert_of_lowest lowest]
      · rw [List.orderedInsert_of_not_le _ rest front]
        by_cases keep : kept first
        · rw [List.filter_cons_of_pos keep, List.filter_cons_of_pos keep,
            inductionHypothesis others, List.orderedInsert_of_not_le _ _ front]
          split
          · rfl
          · rfl
        · rw [List.filter_cons_of_neg keep, List.filter_cons_of_neg keep]
          exact inductionHypothesis others

private theorem filter_insertionSort (kept : Field × Json → Bool) (items : List (Field × Json)) :
    (items.insertionSort NotAbove).filter kept =
      (items.filter kept).insertionSort NotAbove := by
  induction items with
  | nil =>
      rfl
  | cons item rest inductionHypothesis =>
      rw [List.insertionSort_cons,
        filter_orderedInsert kept item (List.pairwise_insertionSort NotAbove rest),
        inductionHypothesis, List.filter_cons]
      split
      · rfl
      · rfl

section Signing

variable {registry : Registry}

private theorem writtenField?_signing (entry : String × Json) :
    writtenField? registry true entry =
      (writtenField? registry false entry).filter (·.signing) := by
  obtain ⟨key, value⟩ := entry
  cases value with
  | null =>
      rfl
  | _ =>
      simp only [writtenField?, Option.filter_filter]
      simp [Bool.and_comm]

private theorem writtenFields_signing (entries : List (String × Json)) :
    writtenFields registry true entries =
      (writtenFields registry false entries).filter (·.1.signing) := by
  rw [writtenFields, writtenFields, List.filter_filterMap]
  congr 1
  funext entry
  rw [writtenField?_signing]
  cases writtenField? registry false entry with
  | none =>
      rfl
  | some field =>
      cases signing : field.signing <;> simp [Option.filter, signing]

/-- The fields that a signature covers are written in the order in which they are
written among the others. -/
theorem canonicalFields_signing (entries : List (String × Json)) :
    canonicalFields registry true entries =
      (canonicalFields registry false entries).filter (·.1.signing) := by
  rw [canonicalFields_eq, canonicalFields_eq, writtenFields_signing, filter_insertionSort]

end Signing

variable {context : Context}

/-- Without the fields that a signature does not cover, an object has the segments
of the others. Whether an account is omitted is told by all of the entries. -/
theorem segments_signing {writeValue : ValueWriter} {entries : List (String × Json)}
    {written : List Segment}
    (given : segments context.registry context.addresses writeValue false entries = .ok written) :
    segments context.registry context.addresses writeValue true entries =
      .ok (written.filter (·.field.signing)) := by
  obtain ⟨expands, related⟩ := segments_eq_ok.mp given
  refine segments_eq_ok.mpr ⟨expands, ?_⟩
  rw [canonicalFields_signing]
  refine List.rel_filter (fun part one segmented => ?_) related
  have same : one.field = part.1 := (segment_eq_ok.mp segmented).2.1
  dsimp only
  rw [same]

/-! ## Agreeing on what is signed -/

/-- Whether a signature covers what stands under a key. -/
def Signed (registry : Registry) (key : String) : Prop :=
  ∃ field, registry.field? key = some field ∧ field.serialized = true ∧ field.signing = true

/-- Whether two documents have the same under each key that a signature covers. What
is null counts as absent. -/
def AgreeOnSigned (registry : Registry) (left right : Json) : Prop :=
  ∀ key, Signed registry key → ∀ value, value ≠ .null →
    (left.get? key = some value ↔ right.get? key = some value)

theorem AgreeOnSigned.symm {registry : Registry} {left right : Json}
    (agree : AgreeOnSigned registry left right) : AgreeOnSigned registry right left :=
  fun key signed value nonNull => (agree key signed value nonNull).symm

/-- What has to be signed for the other fields to be of no account: the fields whose
addresses may bring a tag with them, and the type, which tells whether the account
is omitted. -/
structure SignsOrigins (registry : Registry) : Prop where
  ordinals : ((registry.fields.filter (·.serialized)).map Field.ordinal).Nodup
  tagged : ∀ {key tag}, tagField? key = some tag → Signed registry key
  transactionType : Signed registry "TransactionType"

theorem bundled_signsOrigins : SignsOrigins Registry.bundled where
  ordinals := Registry.bundled_distinct.ordinals
  tagged := by
    intro key tag found
    rcases tagField?_eq_some found with ⟨rfl, _⟩ | ⟨rfl, _⟩
    · exact ⟨⟨"Account", "AccountID", 8, 1, true, true, true⟩, rfl, rfl, rfl⟩
    · exact ⟨⟨"Destination", "AccountID", 8, 3, true, true, true⟩, rfl, rfl, rfl⟩
  transactionType :=
    ⟨⟨"TransactionType", "UInt16", 1, 2, false, true, true⟩, rfl, rfl, rfl⟩

private theorem mem_writtenFields_signing {registry : Registry} {entries : List (String × Json)}
    {part : Field × Json} :
    part ∈ writtenFields registry true entries ↔
      (part.1.name, part.2) ∈ entries ∧ part.2 ≠ .null ∧
        registry.field? part.1.name = some part.1 ∧ part.1.serialized = true ∧
        part.1.signing = true := by
  rw [writtenFields_signing, List.mem_filter]
  constructor
  · rintro ⟨member, signing⟩
    obtain ⟨present, found, serialized, nonNull⟩ := mem_writtenFields member
    exact ⟨present, nonNull, found, serialized, signing⟩
  · rintro ⟨present, nonNull, found, serialized, signing⟩
    refine ⟨(canonicalFields_perm _ _ _).mem_iff.mp ?_, signing⟩
    exact mem_canonicalFields found serialized nonNull present

private theorem nonNull_of_mem_replaced {writing : CheckedText} {origin entry : String × Json}
    (member : entry ∈ replaced writing origin) (nonNull : entry.2 ≠ .null) : origin.2 ≠ .null := by
  obtain ⟨key, value⟩ := origin
  rintro rfl
  exact nonNull (congrArg Prod.snd (List.mem_singleton.mp member))

/-- Whether a value names the type of transaction that changes the validators. -/
def NamesChange (registry : Registry) (value : Json) : Prop :=
  ∃ code, EnumCode.ofJson registry .transactionType value = .ok code ∧
    code.name? registry = some "UNLModify"

theorem changesValidators_eq_true {registry : Registry} {entries : List (String × Json)} :
    changesValidators registry entries = true ↔
      ∃ value, NamesChange registry value ∧ entries.lookup "TransactionType" = some value := by
  unfold changesValidators NamesChange
  cases entries.lookup "TransactionType" with
  | none =>
      simp
  | some value =>
      cases read : EnumCode.ofJson registry .transactionType value with
      | error fault =>
          simp [read]
      | ok code =>
          simp [read]

theorem nonNull_of_namesChange {registry : Registry} {value : Json}
    (names : NamesChange registry value) : value ≠ .null := by
  rintro rfl
  obtain ⟨code, read, _⟩ := names
  cases read

/-- Entries that can be written: no two have one key, and their addresses can be
expanded. -/
structure Expandable (context : Context) (entries : List (String × Json)) : Prop where
  distinct : (entries.map (·.1)).Nodup
  expands : ∃ result, expand context.addresses entries = .ok result

private theorem expandable_of_encode {document : Json} (distinct : document.distinctKeys = true)
    {bytes : Bytes} (encoded : encode context false document = .ok bytes) :
    ∃ entries, document = .object entries ∧ Expandable context entries := by
  obtain ⟨entries, written, rfl, given, _⟩ := objectBytes_eq_ok.mp encoded
  exact ⟨entries, rfl, (Json.distinctKeys_object.mp distinct).1, (segments_eq_ok.mp given).1⟩

namespace Expandable

variable {entries : List (String × Json)}

private theorem nodup_keys (writable : Expandable context entries) :
    ((expanded context.addresses entries).map (·.1)).Nodup := by
  obtain ⟨result, expands⟩ := writable.expands
  exact nodup_keys_expanded expands writable.distinct

theorem nodup_names (writable : Expandable context entries) :
    ((writtenFields context.registry true (expanded context.addresses entries)).map
      (·.1.name)).Nodup :=
  (names_sublist _ _ _).nodup writable.nodup_keys

/-- Equal ordinals mean one field, and a field has one value. -/
theorem eq_of_ordinal_eq (writable : Expandable context entries)
    (ordinals : ((context.registry.fields.filter (·.serialized)).map Field.ordinal).Nodup)
    {one other : Field × Json}
    (oneMember : one ∈ writtenFields context.registry true (expanded context.addresses entries))
    (otherMember : other ∈ writtenFields context.registry true (expanded context.addresses entries))
    (same : one.1.ordinal = other.1.ordinal) : one = other := by
  have serialized : ∀ part ∈ writtenFields context.registry true
      (expanded context.addresses entries),
      part.1 ∈ context.registry.fields.filter (·.serialized) := by
    intro part member
    obtain ⟨_, found, serialized, _⟩ := mem_writtenFields member
    exact List.mem_filter.mpr ⟨(Registry.mem_of_field? found).1, serialized⟩
  have fields : one.1 = other.1 := List.inj_on_of_nodup_map ordinals
    (serialized one oneMember) (serialized other otherMember) same
  exact List.inj_on_of_nodup_map writable.nodup_names oneMember otherMember
    (congrArg Field.name fields)

end Expandable

/-- Entries that can be written and agree on what is signed. -/
structure SignedAlike (context : Context) (left right : List (String × Json)) : Prop where
  agree : AgreeOnSigned context.registry (.object left) (.object right)
  left : Expandable context left
  right : Expandable context right

namespace SignedAlike

variable {left right : List (String × Json)}

theorem symm (alike : SignedAlike context left right) : SignedAlike context right left :=
  ⟨alike.agree.symm, alike.right, alike.left⟩

variable (origins : SignsOrigins context.registry) (alike : SignedAlike context left right)

include origins alike

/-- An entry under a signed key comes from one under a signed key: a tag comes from the
address of its account, so both have to be covered. -/
theorem mem_expanded {entry : String × Json} (signed : Signed context.registry entry.1)
    (nonNull : entry.2 ≠ .null) (member : entry ∈ expanded context.addresses left) :
    entry ∈ expanded context.addresses right := by
  obtain ⟨origin, present, shown⟩ := List.mem_flatMap.mp member
  have originSigned : Signed context.registry origin.1 := by
    rcases key_of_mem_replaced shown with same | tagged
    · exact same ▸ signed
    · exact origins.tagged tagged
  have originNonNull := nonNull_of_mem_replaced shown nonNull
  have found := (alike.agree origin.1 originSigned origin.2 originNonNull).mp
    (lookup_of_mem alike.left.distinct present)
  exact List.mem_flatMap.mpr ⟨origin, mem_of_lookup found, shown⟩

theorem mem_expanded_iff {entry : String × Json} (signed : Signed context.registry entry.1)
    (nonNull : entry.2 ≠ .null) :
    entry ∈ expanded context.addresses left ↔ entry ∈ expanded context.addresses right := by
  constructor
  · exact alike.mem_expanded origins signed nonNull
  · exact alike.symm.mem_expanded origins signed nonNull

private theorem writtenFields_perm :
    (writtenFields context.registry true (expanded context.addresses left)).Perm
      (writtenFields context.registry true (expanded context.addresses right)) := by
  refine (List.perm_ext_iff_of_nodup alike.left.nodup_names.of_map
    alike.right.nodup_names.of_map).mpr fun part => ?_
  rw [mem_writtenFields_signing, mem_writtenFields_signing]
  refine and_congr_left fun ⟨nonNull, found, serialized, signing⟩ => ?_
  exact alike.mem_expanded_iff origins ⟨part.1, found, serialized, signing⟩ nonNull

theorem canonicalFields_eq :
    canonicalFields context.registry true (expanded context.addresses left) =
      canonicalFields context.registry true (expanded context.addresses right) := by
  have order := canonicalFields_perm context.registry true (expanded context.addresses right)
  apply canonicalFields_of_perm
  · exact (alike.writtenFields_perm origins).trans order.symm
  · exact canonicalFields_pairwise _ _ _
  · intro one oneMember other otherMember ordinals
    exact alike.right.eq_of_ordinal_eq origins.ordinals (order.mem_iff.mp oneMember)
      (order.mem_iff.mp otherMember) ordinals

private theorem changesValidators_eq :
    changesValidators context.registry (expanded context.addresses left) =
      changesValidators context.registry (expanded context.addresses right) := by
  rw [Bool.eq_iff_iff, changesValidators_eq_true, changesValidators_eq_true]
  refine exists_congr fun value => and_congr_right fun names => ?_
  rw [lookup_eq_some_iff alike.left.nodup_keys, lookup_eq_some_iff alike.right.nodup_keys]
  exact alike.mem_expanded_iff origins origins.transactionType (nonNull_of_namesChange names)

private theorem segments_eq (writeValue : ValueWriter) :
    segments context.registry context.addresses writeValue true left =
      segments context.registry context.addresses writeValue true right := by
  obtain ⟨leftResult, leftExpands⟩ := alike.left.expands
  obtain ⟨rightResult, rightExpands⟩ := alike.right.expands
  rw [segments, segments, leftExpands, rightExpands, expand_eq_ok leftExpands,
    expand_eq_ok rightExpands, Outcome.ok_bind, Outcome.ok_bind,
    alike.canonicalFields_eq origins, alike.changesValidators_eq origins]

end SignedAlike

/-- Over the ledger's own registry the signed fields alone tell the signed segments. -/
theorem encode_signing_of_agree {left right : Json} {leftBytes rightBytes : Bytes}
    (bundled : context.registry = Registry.bundled)
    (agree : AgreeOnSigned context.registry left right)
    (leftDistinct : left.distinctKeys = true) (rightDistinct : right.distinctKeys = true)
    (leftEncoded : encode context false left = .ok leftBytes)
    (rightEncoded : encode context false right = .ok rightBytes) :
    encode context true left = encode context true right := by
  obtain ⟨leftEntries, rfl, leftWritable⟩ := expandable_of_encode leftDistinct leftEncoded
  obtain ⟨rightEntries, rfl, rightWritable⟩ := expandable_of_encode rightDistinct rightEncoded
  have origins : SignsOrigins context.registry := bundled ▸ bundled_signsOrigins
  have alike : SignedAlike context leftEntries rightEntries := ⟨agree, leftWritable, rightWritable⟩
  rw [encode, encode, objectBytes, objectBytes, Json.asObject, Json.asObject, Outcome.ok_bind,
    Outcome.ok_bind, alike.segments_eq origins]

end Object

/-! ## Payloads -/

namespace Signing

open Object

variable {context : Context}

/-- The octets of the segments whose fields a signature covers. -/
def signedBytes (written : List Segment) : Bytes :=
  (written.filter (·.field.signing)).flatMap Segment.bytes

theorem single_eq_ok {transaction : Json} {fields : Bytes}
    (encoded : encode context true transaction = .ok fields) :
    single context transaction = .ok (HashPrefix.transactionSig.bytes ++ fields) := by
  rw [single, encoded]
  rfl

theorem multiple_eq_ok {transaction : Json} {signer : String} {account : AccountId}
    {fields : Bytes} (keyEmpty : transaction.get? "SigningPubKey" = some (.string ""))
    (parsed : Account.parse context.addresses signer = .ok account)
    (encoded : encode context true transaction = .ok fields) :
    multiple context transaction signer =
      .ok (HashPrefix.transactionMultiSig.bytes ++ fields ++ account.bytes) := by
  rw [multiple, keyEmpty, parsed, encoded]
  rfl

theorem string?_eq_some {found : Option Json} {text : String} :
    found.bind Json.string? = some text ↔ found = some (.string text) := by
  cases found with
  | none =>
      simp
  | some value =>
      cases value <;> simp [Json.string?]

/-- The key of a single signer is itself signed. -/
theorem signingPubKey_signed : Signed Registry.bundled "SigningPubKey" :=
  ⟨⟨"SigningPubKey", "Blob", 7, 3, true, true, true⟩, rfl, rfl, rfl⟩

private theorem multiple_of_agree {left right : Json}
    (bundled : context.registry = Registry.bundled)
    (agree : AgreeOnSigned context.registry left right)
    (same : encode context true left = encode context true right) (signer : String) :
    multiple context left signer = multiple context right signer := by
  have keys : (left.get? "SigningPubKey").bind Json.string? = some "" ↔
      (right.get? "SigningPubKey").bind Json.string? = some "" := by
    rw [string?_eq_some, string?_eq_some]
    exact agree _ (bundled ▸ signingPubKey_signed) _ Json.noConfusion
  unfold multiple
  rw [same]
  simp only [keys]

/-- Of every transaction that is encoded, the payload of a single signer has the
segments of the signed fields, in their order, behind its prefix. So does that of
one of several signers, if the key is empty and the signer is an account, with the
account behind them. Over the ledger's own registry, another transaction with the
same signed fields has the same payloads, whatever its other fields are. -/
theorem payloads_of_encoded {transaction : Json} {bytes : Bytes}
    (encoded : encode context false transaction = .ok bytes) :
    ∃ entries written, transaction = .object entries ∧
      segmentsOf context false entries = .ok written ∧
      bytes = written.flatMap Segment.bytes ∧
      single context transaction =
        .ok (HashPrefix.transactionSig.bytes ++ signedBytes written) ∧
      (∀ signer account, transaction.get? "SigningPubKey" = some (.string "") →
        Account.parse context.addresses signer = .ok account →
        multiple context transaction signer =
          .ok (HashPrefix.transactionMultiSig.bytes ++ signedBytes written ++ account.bytes)) ∧
      ∀ other otherBytes, context.registry = Registry.bundled →
        transaction.distinctKeys = true → other.distinctKeys = true →
        encode context false other = .ok otherBytes →
        AgreeOnSigned context.registry transaction other →
        single context other = single context transaction ∧
          ∀ signer, multiple context other signer = multiple context transaction signer := by
  obtain ⟨entries, written, rfl, given, rfl⟩ := objectBytes_eq_ok.mp encoded
  have signed : encode context true (.object entries) = .ok (signedBytes written) :=
    objectBytes_eq_ok.mpr ⟨entries, _, rfl, segments_signing given, rfl⟩
  refine ⟨entries, written, rfl, given, rfl, single_eq_ok signed,
    fun signer account keyEmpty parsed => multiple_eq_ok keyEmpty parsed signed, ?_⟩
  intro other otherBytes bundled distinct otherDistinct otherEncoded agree
  have same := encode_signing_of_agree bundled agree distinct otherDistinct encoded otherEncoded
  constructor
  · rw [single, single, same]
  · intro signer
    exact (multiple_of_agree bundled agree same signer).symm

/-- A payment with one signature. -/
def signedPayment : Json := .object [
  ("Flags", Json.ofNat 0),
  ("SigningPubKey", .string ""),
  ("TransactionType", .string "Payment"),
  ("TxnSignature", .string "AB")]

/-- The same payment with another signature, and with that of a signer. -/
def cosignedPayment : Json := .object [
  ("Flags", Json.ofNat 0),
  ("Signers", .array [.object [("Signer", .object [("TxnSignature", .string "CD")])]]),
  ("SigningPubKey", .string ""),
  ("TransactionType", .string "Payment"),
  ("TxnSignature", .string "EF")]

private theorem payments_agree : AgreeOnSigned Registry.bundled signedPayment cosignedPayment := by
  intro key signed value _
  obtain ⟨field, found, _, signing⟩ := signed
  have unsigned : ∀ name ∈ ["Signers", "TxnSignature"],
      (Registry.bundled.field? name).any (·.signing) = false :=
    List.forall_mem_cons.mpr ⟨rfl, List.forall_mem_singleton.mpr rfl⟩
  have apart : ∀ name ∈ ["Signers", "TxnSignature"], key ≠ name := by
    rintro name member rfl
    have covered := unsigned key member
    rw [found] at covered
    exact Bool.false_ne_true (covered.symm.trans signing)
  have signers : (key == "Signers") = false :=
    beq_eq_false_iff_ne.mpr (apart "Signers" (by decide))
  have signature : (key == "TxnSignature") = false :=
    beq_eq_false_iff_ne.mpr (apart "TxnSignature" (by decide))
  simp [signedPayment, cosignedPayment, Json.get?, List.lookup_cons, signers, signature]

/-- The account with the octets from 1 to 20. -/
def cosigner : AccountId := ⟨(List.range' 1 20).map UInt8.ofNat, rfl⟩

private theorem parse_cosigner :
    Account.parse CheckedText.base58 "0102030405060708090A0B0C0D0E0F1011121314" = .ok cosigner :=
  Outcome.eq_ok_of_toOption rfl

/-- Both payments have one payload for each signer, in which neither signature is. -/
theorem payloads_of_payments :
    (∃ entries written, signedPayment = .object entries ∧
      segmentsOf Context.standard false entries = .ok written ∧
      single Context.standard signedPayment =
        .ok (HashPrefix.transactionSig.bytes ++ signedBytes written) ∧
      multiple Context.standard signedPayment "0102030405060708090A0B0C0D0E0F1011121314" =
        .ok (HashPrefix.transactionMultiSig.bytes ++ signedBytes written ++
          cosigner.bytes)) ∧
    single Context.standard cosignedPayment = single Context.standard signedPayment ∧
    ∀ signer, multiple Context.standard cosignedPayment signer =
      multiple Context.standard signedPayment signer := by
  have encoded : encode Context.standard false signedPayment =
      .ok [0x12, 0, 0, 0x22, 0, 0, 0, 0, 0x73, 0, 0x74, 1, 0xAB] :=
    Outcome.eq_ok_of_toOption (by decide +kernel)
  have cosigned : encode Context.standard false cosignedPayment =
      .ok [0x12, 0, 0, 0x22, 0, 0, 0, 0, 0x73, 0, 0x74, 1, 0xEF,
        0xF3, 0xE0, 0x10, 0x74, 1, 0xCD, 0xE1, 0xF1] :=
    Outcome.eq_ok_of_toOption (by decide +kernel)
  obtain ⟨entries, written, same, given, _, one, several, others⟩ := payloads_of_encoded encoded
  obtain ⟨oneAgain, severalAgain⟩ :=
    others cosignedPayment _ rfl (by decide) (by decide) cosigned payments_agree
  exact ⟨⟨entries, written, same, given, one, several _ _ rfl parse_cosigner⟩, oneAgain,
    severalAgain⟩

end Signing

end LedgerWire
