import LedgerWire.Ledger.Contents
import LedgerWire.Proofs.Framing
import LedgerWire.Proofs.TreeBinding
import Mathlib.Logic.Relator

/-!
# The root of a ledger's transactions

The root commits to the octets of each transaction and of its metadata under the
hash of the transaction: the lengths in front of both tell where one ends and the
other starts, and the tree tells what is under which hash.
-/

namespace LedgerWire

/-! ## Maps of related values -/

section Related

variable {α β : Type} {related : α → β → Prop}

/-- Additions of related values, in one order under the same indexes. -/
abbrev RelatedAdditions (related : α → β → Prop) :
    List (Hash 32 × α) → List (Hash 32 × β) → Prop :=
  List.Forall₂ fun one other => one.1 = other.1 ∧ related one.2 other.2

private theorem lookup_related {left : List (Hash 32 × α)} {right : List (Hash 32 × β)}
    (both : RelatedAdditions related left right) (index : Hash 32) :
    Option.Rel related (left.lookup index) (right.lookup index) := by
  induction both with
  | nil =>
      exact .none
  | @cons one other _ _ head _ inductionHypothesis =>
      obtain ⟨indexes, values⟩ := head
      rw [List.lookup_cons, List.lookup_cons, indexes]
      cases index == other.1 with
      | true =>
          exact .some values
      | false =>
          exact inductionHypothesis

private theorem lookup_contents_related {left : List (Hash 32 × α)} {right : List (Hash 32 × β)}
    (both : RelatedAdditions related left right) (index : Hash 32) :
    Option.Rel related ((contents left).lookup index) ((contents right).lookup index) := by
  rw [lookup_contents, lookup_contents]
  exact lookup_related (List.forall₂_reverse_iff.mpr both) index

private theorem eq_iff_of_rel (unique : Relator.BiUnique related) {left others : Option α}
    {right otherRight : Option β} (one : Option.Rel related left right)
    (other : Option.Rel related others otherRight) : left = others ↔ right = otherRight := by
  cases one with
  | none =>
      cases other with
      | none =>
          simp
      | some _ =>
          simp
  | some oneValues =>
      cases other with
      | none =>
          simp
      | some otherValues =>
          rw [Option.some.injEq, Option.some.injEq]
          exact Relator.rel_eq unique oneValues otherValues

theorem contents_eq_iff (unique : Relator.BiUnique related)
    {left others : List (Hash 32 × α)} {right otherRight : List (Hash 32 × β)}
    (both : RelatedAdditions related left right)
    (bothOthers : RelatedAdditions related others otherRight) :
    contents left = contents others ↔ contents right = contents otherRight := by
  have values : ∀ index, (contents left).lookup index = (contents others).lookup index ↔
      (contents right).lookup index = (contents otherRight).lookup index := fun index =>
    eq_iff_of_rel unique (lookup_contents_related both index)
      (lookup_contents_related bothOthers index)
  constructor
  · intro same
    exact Finmap.ext_lookup fun index => (values index).mp (congrArg (Finmap.lookup index) same)
  · intro same
    exact Finmap.ext_lookup fun index => (values index).mpr (congrArg (Finmap.lookup index) same)

end Related

/-! ## Transactions -/

namespace Ledger

variable (context : Context)

/-- A transaction's hash, with the octets of the transaction and of its metadata. -/
def transactionRecord (value : Json) : Except LedgerError (Hash 32 × Bytes × Bytes) := do
  let index ← indexOf "hash" value
  match value.get? "metaData" with
  | none => throw (.missingField "metaData")
  | some metadata =>
      let transactionBytes ← (Object.encode context false value).mapError .codec
      let metadataBytes ← (Object.encode context false metadata).mapError .codec
      return (index, transactionBytes, metadataBytes)

/-- The strings that are hashed for the root of the transactions. -/
def transactionStrings (transactions : List Json) : List Bytes :=
  match transactions.mapM (transactionItem context) with
  | .error _ => []
  | .ok items => (HashTree.ofList items).hashed sha512Half

/-- The item of a transaction has both strings of octets framed. -/
def Itemized (octets : Bytes × Bytes) (item : TreeItem) : Prop :=
  ∃ front back, Length.frame octets.1 = .ok front ∧ Length.frame octets.2 = .ok back ∧
    item = ⟨.transactionNode, front ++ back⟩

/-- The item tells the octets, and they tell the item. -/
theorem itemized_biUnique : Relator.BiUnique Itemized := by
  constructor
  · rintro octets item others ⟨front, back, framed, backFramed, rfl⟩
      ⟨otherFront, otherBack, otherFramed, otherBackFramed, same⟩
    obtain ⟨transaction, rest⟩ :=
      Length.frame_append_inj framed otherFramed (congrArg TreeItem.bytes same)
    have behind : back ++ [] = otherBack ++ [] := congrArg (· ++ []) rest
    obtain ⟨metadata, _⟩ := Length.frame_append_inj backFramed otherBackFramed behind
    exact Prod.ext transaction metadata
  · rintro octets _ _ ⟨front, back, framed, backFramed, rfl⟩
      ⟨otherFront, otherBack, otherFramed, otherBackFramed, rfl⟩
    rw [framed] at otherFramed
    rw [backFramed] at otherBackFramed
    cases otherFramed
    cases otherBackFramed
    rfl

variable {context}

/-- Each item is made of the record of its transaction. -/
theorem itemized_of_transactionItem {value : Json} {addition : Hash 32 × TreeItem}
    (succeeded : transactionItem context value = .ok addition) :
    ∃ record, transactionRecord context value = .ok record ∧
      record.1 = addition.1 ∧ Itemized record.2 addition.2 := by
  unfold transactionItem at succeeded
  unfold transactionRecord
  obtain ⟨index, indexed, found⟩ := Outcome.bind_eq_ok.mp succeeded
  rw [indexed, Outcome.ok_bind]
  cases given : value.get? "metaData" with
  | none =>
      rw [given] at found
      cases found
  | some metadata =>
      rw [given] at found
      obtain ⟨bytes, written, rfl⟩ := Outcome.bind_pure_eq_ok.mp found
      obtain ⟨transaction, transactionEncoded, behind⟩ :=
        Outcome.bind_eq_ok.mp (Outcome.mapError_eq_ok.mp written)
      obtain ⟨metadataBytes, metadataEncoded, framings⟩ := Outcome.bind_eq_ok.mp behind
      obtain ⟨front, framed, last⟩ := Outcome.bind_eq_ok.mp framings
      obtain ⟨back, backFramed, rfl⟩ := Outcome.bind_pure_eq_ok.mp last
      refine ⟨(index, transaction, metadataBytes), ?_, rfl, front, back, framed, backFramed, rfl⟩
      dsimp only
      rw [transactionEncoded, metadataEncoded]
      rfl

theorem transactionRoot_eq_ok {transactions : List Json} {root : Hash 32} :
    transactionRoot context transactions = .ok root ↔
      ∃ items, transactions.mapM (transactionItem context) = .ok items ∧
        (HashTree.ofList items).root sha512Half = root :=
  Outcome.bind_pure_eq_ok

private theorem records_of_items {transactions : List Json} {items : List (Hash 32 × TreeItem)}
    (worked : transactions.mapM (transactionItem context) = .ok items) :
    ∃ records, transactions.mapM (transactionRecord context) = .ok records ∧
      RelatedAdditions Itemized records items := by
  simp only [Outcome.mapM_eq_ok] at worked ⊢
  induction worked with
  | nil =>
      exact ⟨[], .nil, .nil⟩
  | cons head _ inductionHypothesis =>
      obtain ⟨record, recorded, itemized⟩ := itemized_of_transactionItem head
      obtain ⟨records, others, related⟩ := inductionHypothesis
      exact ⟨record :: records, .cons recorded others, .cons itemized related⟩

private theorem use_of_itemized {records : List (Hash 32 × Bytes × Bytes)}
    {items : List (Hash 32 × TreeItem)} (related : RelatedAdditions Itemized records items) :
    ∀ addition ∈ items, addition.2.use ≠ .innerNode := by
  intro addition member
  obtain ⟨record, _, _, front, back, _, _, same⟩ := Outcome.exists_of_mem_right related member
  rw [same]
  exact HashPrefix.noConfusion

private theorem indexes_of_related {α β : Type} {related : α → β → Prop} {left : List (Hash 32 × α)}
    {right : List (Hash 32 × β)} (both : RelatedAdditions related left right) :
    left.map (·.1) = right.map (·.1) := by
  rw [← List.forall₂_eq_eq_eq, List.forall₂_map_left_iff, List.forall₂_map_right_iff]
  exact both.imp fun _ _ head => head.1

private theorem items_of_perm {transactions others : List Json} (same : transactions.Perm others)
    {items : List (Hash 32 × TreeItem)}
    (worked : transactions.mapM (transactionItem context) = .ok items) :
    ∃ otherItems, others.mapM (transactionItem context) = .ok otherItems ∧
      items.Perm otherItems := by
  obtain ⟨otherItems, related, order⟩ :=
    List.perm_comp_forall₂ same.symm (Outcome.mapM_eq_ok.mp worked)
  exact ⟨otherItems, Outcome.mapM_eq_ok.mpr related, order.symm⟩

/-- The root is told by the octets of the transactions and of their metadata under
the hashes of the transactions, in any order if the hashes differ. And it tells
them, if the strings that are hashed for it do not clash. -/
theorem transactionRoot_commits {left right : List Json} {leftRoot rightRoot : Hash 32}
    (leftSucceeded : transactionRoot context left = .ok leftRoot)
    (rightSucceeded : transactionRoot context right = .ok rightRoot) :
    ∃ leftRecords rightRecords,
      left.mapM (transactionRecord context) = .ok leftRecords ∧
      right.mapM (transactionRecord context) = .ok rightRecords ∧
      (contents leftRecords = contents rightRecords → leftRoot = rightRoot) ∧
      (leftRoot = rightRoot → contents leftRecords = contents rightRecords ∨
        Clash sha512Half (transactionStrings context left ++ transactionStrings context right)) ∧
      ((leftRecords.map (·.1)).Nodup → ∀ others, left.Perm others →
        transactionRoot context others = .ok leftRoot) := by
  obtain ⟨leftItems, leftWorked, rfl⟩ := transactionRoot_eq_ok.mp leftSucceeded
  obtain ⟨rightItems, rightWorked, rfl⟩ := transactionRoot_eq_ok.mp rightSucceeded
  obtain ⟨leftRecords, leftRecorded, leftRelated⟩ := records_of_items leftWorked
  obtain ⟨rightRecords, rightRecorded, rightRelated⟩ := records_of_items rightWorked
  have tells := contents_eq_iff itemized_biUnique leftRelated rightRelated
  refine ⟨leftRecords, rightRecords, leftRecorded, rightRecorded, fun same => ?_, fun same => ?_,
    fun distinct others order => ?_⟩
  · rw [HashTree.root_ofList, HashTree.root_ofList, tells.mp same]
  · rw [transactionStrings, transactionStrings, leftWorked, rightWorked]
    by_cases clash : Clash sha512Half ((HashTree.ofList leftItems).hashed sha512Half ++
        (HashTree.ofList rightItems).hashed sha512Half)
    · exact .inr clash
    · exact .inl (tells.mpr (HashTree.contents_eq_of_clean (use_of_itemized leftRelated)
        (use_of_itemized rightRelated) same clash))
  · obtain ⟨otherItems, otherWorked, sameItems⟩ := items_of_perm order leftWorked
    rw [indexes_of_related leftRelated] at distinct
    refine transactionRoot_eq_ok.mpr ⟨otherItems, otherWorked, ?_⟩
    rw [HashTree.root_ofList, HashTree.root_ofList, contents_perm sameItems distinct]

/-- A payment of a ledger, under the hash that this octet makes up. -/
def ledgerPayment (octet : UInt8) : Json := .object [
  ("Flags", Json.ofNat octet.toNat),
  ("TransactionType", .string "Payment"),
  ("hash", .string (Hex.encode (List.replicate 32 octet))),
  ("metaData", .object [
    ("TransactionIndex", Json.ofNat octet.toNat),
    ("TransactionResult", .string "tesSUCCESS")])]

/-- The item of a payment: both strings have their lengths in front. -/
def paymentItem (octet : UInt8) : Hash 32 × TreeItem :=
  (⟨List.replicate 32 octet, List.length_replicate⟩,
    ⟨.transactionNode, [8, 0x12, 0, 0, 0x22, 0, 0, 0, octet, 9, 0x20, 0x1C, 0, 0, 0, octet,
      3, 0x10, 0]⟩)

private theorem items_of_payments :
    [ledgerPayment 1, ledgerPayment 2].mapM (transactionItem Context.standard) =
      .ok [paymentItem 1, paymentItem 2] :=
  Outcome.eq_ok_of_toOption (by decide +kernel)

/-- Two payments have one root in either order, and it commits to them. -/
theorem transactionRoot_commits_payments :
    ∃ root records others,
      transactionRoot Context.standard [ledgerPayment 1, ledgerPayment 2] = .ok root ∧
      transactionRoot Context.standard [ledgerPayment 2, ledgerPayment 1] = .ok root ∧
      [ledgerPayment 1, ledgerPayment 2].mapM (transactionRecord Context.standard) =
        .ok records ∧
      [ledgerPayment 2, ledgerPayment 1].mapM (transactionRecord Context.standard) =
        .ok others ∧
      (contents records = contents others ∨ Clash sha512Half
        (transactionStrings Context.standard [ledgerPayment 1, ledgerPayment 2] ++
          transactionStrings Context.standard [ledgerPayment 2, ledgerPayment 1])) := by
  have succeeded := transactionRoot_eq_ok.mpr ⟨_, items_of_payments, rfl⟩
  obtain ⟨items, worked, order⟩ :=
    items_of_perm (List.Perm.swap (ledgerPayment 2) (ledgerPayment 1) []) items_of_payments
  have swapped := transactionRoot_eq_ok.mpr ⟨items, worked, rfl⟩
  have same : (HashTree.ofList [paymentItem 1, paymentItem 2]).root sha512Half =
      (HashTree.ofList items).root sha512Half := by
    rw [HashTree.root_ofList, HashTree.root_ofList, contents_perm order (by decide)]
  obtain ⟨records, others, recorded, othersRecorded, _, binds, _⟩ :=
    transactionRoot_commits succeeded swapped
  exact ⟨_, records, others, succeeded, same ▸ swapped, recorded, othersRecorded, binds same⟩

end Ledger

end LedgerWire
