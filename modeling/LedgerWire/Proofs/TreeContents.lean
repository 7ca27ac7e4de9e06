import LedgerWire.Proofs.HexDigits
import LedgerWire.Proofs.TreeShape
import Mathlib.Data.Finmap
import Mathlib.Data.List.FinRange

/-!
# What a tree holds

A tree stands for a finite map from indexes to items. Its hash is told by the map,
from the octets that are hashed for its leaves and slots, so it does not matter in
which order the items came, and each addition gives the item that the map had under
the index.
-/

namespace LedgerWire

/-! ## Maps from indexes -/

/-- A finite map from indexes. -/
abbrev Contents (α : Type) := Finmap fun _ : Hash 32 => α

/-- The map that additions make one after another; of two under one index the
later counts. -/
def contents {α : Type} (additions : List (Hash 32 × α)) : Contents α :=
  additions.foldl (fun held addition => held.insert addition.1 addition.2) ∅

section Additions

variable {α : Type}

private theorem contents_append_singleton (additions : List (Hash 32 × α)) (index : Hash 32)
    (value : α) :
    contents (additions ++ [(index, value)]) = (contents additions).insert index value := by
  simp [contents]

/-- The last addition under an index is found there. -/
theorem lookup_contents (additions : List (Hash 32 × α)) (index : Hash 32) :
    (contents additions).lookup index = additions.reverse.lookup index := by
  induction additions using List.reverseRecOn with
  | nil =>
      exact Finmap.lookup_empty index
  | append_singleton additions addition inductionHypothesis =>
      obtain ⟨added, value⟩ := addition
      rw [contents_append_singleton, List.reverse_append, List.reverse_singleton,
        List.singleton_append, List.lookup_cons]
      by_cases same : index = added
      · subst same
        rw [Finmap.lookup_insert, beq_self_eq_true]
      · rw [Finmap.lookup_insert_of_ne _ same, inductionHypothesis, beq_eq_false_iff_ne.mpr same]

theorem mem_of_lookup_contents {additions : List (Hash 32 × α)} {index : Hash 32} {value : α}
    (found : (contents additions).lookup index = some value) : (index, value) ∈ additions := by
  rw [lookup_contents] at found
  obtain ⟨before, behind, split, _⟩ := List.lookup_eq_some_iff.mp found
  rw [← List.mem_reverse, split]
  simp

/-- Additions under different indexes may come in any order. -/
theorem contents_perm {left right : List (Hash 32 × α)} (same : left.Perm right)
    (distinct : (left.map (·.1)).Nodup) : contents left = contents right := by
  refine same.foldl_eq' (fun one oneMember other otherMember held => ?_) ∅
  by_cases equal : one = other
  · rw [equal]
  · have apart : one.1 ≠ other.1 := fun indexes =>
      equal (List.inj_on_of_nodup_map distinct oneMember otherMember indexes)
    exact Finmap.insert_insert_of_ne held apart

private theorem keys_contents (additions : List (Hash 32 × α)) :
    (contents additions).keys = (additions.map (·.1)).toFinset := by
  ext index
  rw [Finmap.mem_keys, ← Finmap.lookup_isSome, lookup_contents, List.lookup_isSome_iff,
    List.mem_toFinset, List.mem_map]
  simp only [List.mem_reverse, beq_iff_eq, eq_comm (a := index)]

private theorem card_keys_insert (held : Contents α) (index : Hash 32) (value : α) :
    (held.insert index value).keys.card =
      if (held.lookup index).isNone then held.keys.card + 1 else held.keys.card := by
  have keys : (held.insert index value).keys = insert index held.keys := by
    ext other
    simp only [Finmap.mem_keys, Finmap.mem_insert, Finset.mem_insert]
  rw [keys]
  cases found : held.lookup index with
  | none =>
      have absent : index ∉ held.keys := Finmap.lookup_eq_none.mp found
      exact Finset.card_insert_of_notMem absent
  | some replaced =>
      have present : index ∈ held.keys := Finmap.mem_of_lookup_eq_some found
      rw [Finset.insert_eq_of_mem present]
      rfl

end Additions

/-! ## Trees of maps -/

namespace HashTree

/-- The tree of a map. -/
def ofContents (held : Contents TreeItem) : HashTree where
  top := held.liftOn (fun list => TreeNode.shape 64 0 list.entries)
    fun _ _ same => TreeNode.shape_perm same
  size := held.keys.card

private theorem ofContents_empty : ofContents ∅ = empty := by
  rw [ofContents, ← Finmap.empty_toFinmap]
  rfl

/-- An addition to the tree of a map is one to the map, and it gives what the map
had under the index. -/
theorem add_ofContents (held : Contents TreeItem) (index : Hash 32) (item : TreeItem) :
    (ofContents held).add index item =
      (ofContents (held.insert index item), held.lookup index) := by
  induction held using Finmap.induction_on with
  | H list =>
      have placed := TreeNode.Placed.top list.nodupKeys
      have placedAfter := TreeNode.Placed.top (list.insert index item).nodupKeys
      have added := TreeNode.add_shape (show 0 + (63 + 1) = 64 from rfl) placed placedAfter 0
      rw [ofContents, ofContents, card_keys_insert, Finmap.lookup_toFinmap, Finmap.insert_toFinmap,
        Finmap.liftOn_toFinmap, Finmap.liftOn_toFinmap, add]
      dsimp only
      rw [added]
      rfl

theorem ofList_append_singleton (additions : List (Hash 32 × TreeItem)) (index : Hash 32)
    (item : TreeItem) :
    ofList (additions ++ [(index, item)]) = ((ofList additions).add index item).1 := by
  simp [ofList]

theorem ofList_eq_ofContents (additions : List (Hash 32 × TreeItem)) :
    ofList additions = ofContents (contents additions) := by
  induction additions using List.reverseRecOn with
  | nil =>
      exact ofContents_empty.symm
  | append_singleton additions addition inductionHypothesis =>
      obtain ⟨index, item⟩ := addition
      rw [ofList_append_singleton, inductionHypothesis, add_ofContents, contents_append_singleton]

end HashTree

/-! ## The hash of a map -/

namespace Contents

open TreeNode

/-! ### The octets that are hashed -/

/-- The four octets in front of data that is hashed for a use: three letters and a zero. -/
def useOctets : HashPrefix → Bytes
  | .transactionId => [0x54, 0x58, 0x4E, 0x00]
  | .transactionNode => [0x53, 0x4E, 0x44, 0x00]
  | .accountStateEntry => [0x4D, 0x4C, 0x4E, 0x00]
  | .innerNode => [0x4D, 0x49, 0x4E, 0x00]
  | .ledgerHeader => [0x4C, 0x57, 0x52, 0x00]
  | .transactionSig => [0x53, 0x54, 0x58, 0x00]
  | .transactionMultiSig => [0x53, 0x4D, 0x54, 0x00]
  | .validation => [0x56, 0x41, 0x4C, 0x00]
  | .proposal => [0x50, 0x52, 0x50, 0x00]
  | .paymentChannelClaim => [0x43, 0x4C, 0x4D, 0x00]

/-- A leaf is hashed as the octets of its item's use, the item and the index. -/
def leafOctets (entry : Entry) : Bytes :=
  useOctets entry.2.use ++ entry.2.bytes ++ entry.1.bytes

/-- An inner node is hashed as the octets of its use and the sixteen hashes of its slots. -/
def innerOctets (slots : Fin 16 → Hash 32) : Bytes :=
  useOctets .innerNode ++ ((List.ofFn slots).map Hash.bytes).flatten

private theorem bytes_eq_useOctets (use : HashPrefix) : use.bytes = useOctets use := by
  cases use <;> rfl

private theorem leafBytes_eq_leafOctets (entry : Entry) :
    leafBytes entry.1 entry.2 = leafOctets entry := by
  rw [leafBytes, bytes_eq_useOctets, leafOctets]

private theorem innerBytes_eq_innerOctets (slots : Fin 16 → Hash 32) :
    innerBytes slots = innerOctets slots := by
  rw [innerBytes, bytes_eq_useOctets, innerOctets, List.flatMap_def, List.map_ofFn,
    List.ofFn_eq_map]
  rfl

/-! ### The slots of half octets -/

/-- The entries whose indexes continue with a half octet, the higher half of each octet
first. -/
def continuing (depth : Nat) (slot : Fin 16) (entries : Entries) : Entries :=
  entries.filter fun entry => (Hex.halves entry.1.bytes).getD depth 0 = slot.val

private theorem getD_halves (bytes : Bytes) (depth : Nat) :
    (Hex.halves bytes).getD depth 0 =
      if depth % 2 = 0 then (bytes.getD (depth / 2) 0).toNat / 16
      else (bytes.getD (depth / 2) 0).toNat % 16 := by
  induction bytes generalizing depth with
  | nil =>
      simp [Hex.halves]
  | cons byte rest inductionHypothesis =>
      rcases depth with _ | _ | depth
      · rfl
      · rfl
      · have octet : (depth + 1 + 1) / 2 = depth / 2 + 1 := by omega
        have parity : (depth + 1 + 1) % 2 = depth % 2 := by omega
        rw [Hex.halves_cons, octet, parity, List.getD_cons_succ, List.getD_cons_succ,
          List.getD_cons_succ, inductionHypothesis]

private theorem routed_eq_continuing (depth : Nat) (slot : Fin 16) (entries : Entries) :
    routed depth slot entries = continuing depth slot entries := by
  refine List.filter_congr fun entry _ => decide_eq_decide.mpr ?_
  have bound := (entry.1.bytes.getD (depth / 2) 0).toNat_lt
  rw [Fin.ext_iff, getD_halves, Hash.nibble]
  split
  · rw [Fin.val_ofNat, Nat.mod_eq_of_lt (by omega)]
  · rw [Fin.val_ofNat, Nat.mod_mod]

/-! ### The hashes of slots -/

variable (hash : HashFunction)

/-- What a slot counts as above: zero without an entry, the hash of the leaf of a
single entry, and with several what `deeper` gives of them. -/
def slotDigest (deeper : Entries → Hash 32) : Entries → Hash 32
  | [] => Hash.zero 32
  | [entry] => hash (leafOctets entry)
  | entries => deeper entries

/-- The hash over the slots at a depth, each of the entries that continue with its half
octet. Entries are told apart at the last of `levels` half octets. -/
def innerDigest : (levels depth : Nat) → Entries → Hash 32
  | 0, _, _ => Hash.zero 32
  | levels + 1, depth, entries =>
      hash <| innerOctets fun slot =>
        slotDigest hash (innerDigest levels (depth + 1)) (continuing depth slot entries)

/-- The hash of entries, zero if there are none. -/
def digest : Entries → Hash 32
  | [] => Hash.zero 32
  | entries => innerDigest hash 64 0 entries

private theorem root_slotNode {levels depth : Nat} {entries : Entries}
    (several : entries ≠ [] → (shape levels depth entries).root hash =
      innerDigest hash levels depth entries) :
    (slotNode (shape levels depth) entries).root hash =
      slotDigest hash (innerDigest hash levels depth) entries := by
  rcases entries with _ | ⟨one, _ | ⟨other, rest⟩⟩
  · rfl
  · exact congrArg hash (leafBytes_eq_leafOctets one)
  · exact several (by simp)

private theorem root_shape {levels depth : Nat} {entries : Entries} (occupied : entries ≠ []) :
    (shape levels depth entries).root hash = innerDigest hash levels depth entries := by
  induction levels generalizing depth entries with
  | zero =>
      rfl
  | succ levels inductionHypothesis =>
      rw [shape, TreeNode.root, if_neg (mt (all_isEmpty_iff levels depth).mp occupied),
        innerBytes_eq_innerOctets, innerDigest]
      refine congrArg (fun slots => hash (innerOctets slots)) (funext fun slot => ?_)
      rw [← routed_eq_continuing]
      exact root_slotNode hash fun below => inductionHypothesis below

private theorem root_top (entries : Entries) :
    (shape 64 0 entries).root hash = digest hash entries := by
  cases entries with
  | nil =>
      exact root_shape_nil hash 63 0
  | cons entry rest =>
      exact root_shape hash (List.cons_ne_nil entry rest)

/-- The hash of a map. -/
def root (held : Contents TreeItem) : Hash 32 :=
  held.liftOn (fun list => digest hash list.entries) fun left right same => by
    rw [← root_top, ← root_top, shape_perm same]

end Contents

namespace HashTree

private theorem root_ofContents (hash : HashFunction) (held : Contents TreeItem) :
    (ofContents held).root hash = held.root hash := by
  induction held using Finmap.induction_on with
  | H list =>
      exact Contents.root_top hash list.entries

theorem root_ofList (hash : HashFunction) (additions : List (Hash 32 × TreeItem)) :
    (ofList additions).root hash = (contents additions).root hash := by
  rw [ofList_eq_ofContents, root_ofContents]

/-- Whatever is added to the empty tree, its hash is that of the map that the
additions make, its size is the number of their different indexes, and a further
addition gives what the map has under the index. All of this is the same for any
additions that make the same map. -/
theorem ofList_refines (hash : HashFunction) (additions : List (Hash 32 × TreeItem)) :
    (ofList additions).root hash = (contents additions).root hash ∧
      (ofList additions).size = (additions.map (·.1)).toFinset.card ∧
      (∀ index item,
        ((ofList additions).add index item).2 = (contents additions).lookup index) ∧
      ∀ others, contents others = contents additions →
        (ofList others).root hash = (ofList additions).root hash ∧
          (ofList others).size = (ofList additions).size := by
  refine ⟨root_ofList hash additions, ?_, fun index item => ?_, fun others same => ?_⟩
  · rw [ofList_eq_ofContents, ← keys_contents]
    rfl
  · rw [ofList_eq_ofContents, add_ofContents]
  · rw [ofList_eq_ofContents, ofList_eq_ofContents, same]
    exact ⟨rfl, rfl⟩

/-- An index with this last octet. Two of them part at the last half octet or at the
one before. -/
def nearIndex (last : UInt8) : Hash 32 := ⟨List.replicate 31 0xAB ++ [last], by simp⟩

/-- An entry of the state with one octet. -/
def octetItem (octet : UInt8) : TreeItem := ⟨.accountStateEntry, [octet]⟩

/-- An index with this first octet and zeros behind it. -/
def farIndex (first : UInt8) : Hash 32 := ⟨first :: List.replicate 31 0, by simp⟩

/-- The octets that are hashed for three leaves, of which two share their first half
octet: of sixteen slots one has the hash of a leaf, one the hash over these two, and the
others have zeros. -/
theorem root_far (hash : HashFunction) :
    (contents [(farIndex 0xF0, octetItem 2), (farIndex 0x11, octetItem 3),
        (farIndex 0x10, octetItem 4)]).root hash =
      let vacant : Bytes := List.replicate 32 0
      let leaf (octet first : UInt8) : Bytes :=
        (hash ([0x4D, 0x4C, 0x4E, 0x00, octet, first] ++ List.replicate 31 0)).bytes
      let below : Bytes := (hash ([0x4D, 0x49, 0x4E, 0x00] ++
        ([leaf 4 0x10, leaf 3 0x11] ++ List.replicate 14 vacant).flatten)).bytes
      hash ([0x4D, 0x49, 0x4E, 0x00] ++
        ([vacant, below] ++ List.replicate 13 vacant ++ [leaf 2 0xF0]).flatten) := by
  rfl

/-- An item that is replaced later has no part in the tree, and the root is the hash of
the octets that the other items come to. -/
theorem ofList_refines_replaced :
    let additions := [(farIndex 0x10, octetItem 1), (farIndex 0xF0, octetItem 2),
      (farIndex 0x11, octetItem 3), (farIndex 0x10, octetItem 4)]
    let others := [(farIndex 0xF0, octetItem 2), (farIndex 0x11, octetItem 3),
      (farIndex 0x10, octetItem 4)]
    let vacant : Bytes := List.replicate 32 0
    let leaf (octet first : UInt8) : Bytes :=
      (sha512Half ([0x4D, 0x4C, 0x4E, 0x00, octet, first] ++ List.replicate 31 0)).bytes
    let below : Bytes := (sha512Half ([0x4D, 0x49, 0x4E, 0x00] ++
      ([leaf 4 0x10, leaf 3 0x11] ++ List.replicate 14 vacant).flatten)).bytes
    (ofList additions).root sha512Half = sha512Half ([0x4D, 0x49, 0x4E, 0x00] ++
        ([vacant, below] ++ List.replicate 13 vacant ++ [leaf 2 0xF0]).flatten) ∧
      (ofList others).root sha512Half = (ofList additions).root sha512Half ∧
      (ofList others).size = (ofList additions).size ∧
      (ofList additions).size = 3 ∧
      ((ofList additions).add (farIndex 0x10) (octetItem 5)).2 = some (octetItem 4) := by
  intro additions others vacant leaf below
  have same : contents others = contents additions := by rfl
  obtain ⟨roots, size, replaced, unchanged⟩ := ofList_refines sha512Half additions
  obtain ⟨othersRoot, othersSize⟩ := unchanged others same
  refine ⟨?_, othersRoot, othersSize, size.trans (by decide), (replaced _ _).trans ?_⟩
  · rw [roots, ← same]
    exact root_far sha512Half
  · rw [lookup_contents]
    decide

end HashTree

end LedgerWire
