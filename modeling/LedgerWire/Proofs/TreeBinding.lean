import LedgerWire.Proofs.TreeContents

/-!
# The hash of a tree binds what it holds

Trees with one hash hold the same items under the same indexes, unless the hash
function maps two of the strings that are hashed for them to one value, or one of
them to zero, which stands for nothing.
-/

namespace LedgerWire

/-! ## Strings that are hashed -/

theorem HashPrefix.length_bytes (use : HashPrefix) : use.bytes.length = 4 := by
  cases use <;> rfl

private theorem HashPrefix.bytes_inj {left right : HashPrefix} (same : left.bytes = right.bytes) :
    left = right := by
  have found : ∀ use : HashPrefix, all.find? (fun other => other.bytes = use.bytes) = some use := by
    intro use
    cases use <;> rfl
  have leftFound := found left
  rw [same, found right] at leftFound
  exact (Option.some.inj leftFound).symm

namespace TreeNode

private theorem leafBytes_inj {leftIndex rightIndex : Hash 32} {left right : TreeItem}
    (same : leafBytes leftIndex left = leafBytes rightIndex right) :
    leftIndex = rightIndex ∧ left = right := by
  obtain ⟨front, indexes⟩ := List.append_inj' same
    (leftIndex.length_bytes.trans rightIndex.length_bytes.symm)
  obtain ⟨uses, bytes⟩ := List.append_inj front
    (left.use.length_bytes.trans right.use.length_bytes.symm)
  obtain ⟨leftUse, leftBytes⟩ := left
  obtain ⟨rightUse, rightBytes⟩ := right
  cases HashPrefix.bytes_inj uses
  cases bytes
  exact ⟨Hash.ext indexes, rfl⟩

private theorem innerBytes_inj {left right : Fin 16 → Hash 32}
    (same : innerBytes left = innerBytes right) : left = right := by
  have joined : ∀ slots : List (Fin 16),
      (slots.flatMap fun slot => (left slot).bytes) =
          (slots.flatMap fun slot => (right slot).bytes) →
        ∀ slot ∈ slots, left slot = right slot := by
    intro slots
    induction slots with
    | nil =>
        intro _ slot member
        cases member
    | cons first rest inductionHypothesis =>
        intro equal slot member
        rw [List.flatMap_cons, List.flatMap_cons] at equal
        obtain ⟨head, tail⟩ := List.append_inj equal
          ((left first).length_bytes.trans (right first).length_bytes.symm)
        rcases List.mem_cons.mp member with rfl | later
        · exact Hash.ext head
        · exact inductionHypothesis tail slot later
  funext slot
  exact joined _ (List.append_cancel_left same) slot (List.mem_finRange slot)

/-- A leaf that is not hashed as an inner node has other octets than one. -/
theorem leafBytes_ne_innerBytes {index : Hash 32} {item : TreeItem}
    (outside : item.use ≠ .innerNode) (children : Fin 16 → Hash 32) :
    leafBytes index item ≠ innerBytes children := by
  intro same
  rw [leafBytes, innerBytes, List.append_assoc] at same
  have uses := (List.append_inj same
    (item.use.length_bytes.trans (HashPrefix.length_bytes .innerNode).symm)).1
  exact outside (HashPrefix.bytes_inj uses)

variable (hash : HashFunction)

/-- The strings that are hashed for a node. -/
def hashed : TreeNode → List Bytes
  | empty => []
  | leaf index item => [leafBytes index item]
  | inner _ branches =>
      if (List.finRange 16).all fun slot => (branches slot).isEmpty then
        []
      else
        innerBytes (fun slot => (branches slot).root hash) ::
          (List.finRange 16).flatMap fun slot => hashed (branches slot)

end TreeNode

/-- The strings that are hashed for a tree. -/
def HashTree.hashed (hash : HashFunction) (tree : HashTree) : List Bytes :=
  tree.top.hashed hash

/-- Whether two of the strings have one hash, or one has the hash zero. -/
def Clash (hash : HashFunction) (strings : List Bytes) : Prop :=
  (∃ one ∈ strings, ∃ other ∈ strings, one ≠ other ∧ hash one = hash other) ∨
    ∃ one ∈ strings, hash one = Hash.zero 32

namespace Clash

variable {hash : HashFunction}

private theorem mono {some all : List Bytes} (clash : Clash hash some) (subset : some ⊆ all) :
    Clash hash all := by
  rcases clash with ⟨one, oneMember, other, otherMember, apart⟩ | ⟨one, member, zero⟩
  · exact .inl ⟨one, subset oneMember, other, subset otherMember, apart⟩
  · exact .inr ⟨one, subset member, zero⟩

private theorem eq_of_hash_eq {strings : List Bytes} (clean : ¬ Clash hash strings)
    {one other : Bytes} (oneMember : one ∈ strings) (otherMember : other ∈ strings)
    (same : hash one = hash other) : one = other := by
  by_contra apart
  exact clean (.inl ⟨one, oneMember, other, otherMember, apart, same⟩)

private theorem hash_ne_zero {strings : List Bytes} (clean : ¬ Clash hash strings) {one : Bytes}
    (member : one ∈ strings) : hash one ≠ Hash.zero 32 :=
  fun zero => clean (.inr ⟨one, member, zero⟩)

end Clash

namespace TreeNode

variable {hash : HashFunction}

/-! ## Nodes with one hash -/

/-- The hash of a node is that of the string, which is hashed for it. -/
structure HashedAs (hash : HashFunction) (node : TreeNode) (string : Bytes) : Prop where
  member : string ∈ node.hashed hash
  root : node.root hash = hash string

/-- Nodes with one hash, and without a clash among the strings hashed for them. -/
structure Matching (hash : HashFunction) (left right : TreeNode) : Prop where
  same : left.root hash = right.root hash
  clean : ¬ Clash hash (left.hashed hash ++ right.hashed hash)

namespace Matching

variable {left right : TreeNode}

theorem symm (matching : Matching hash left right) : Matching hash right left where
  same := matching.same.symm
  clean clash := matching.clean (clash.mono List.perm_append_comm.subset)

private theorem string_eq (matching : Matching hash left right) {one other : Bytes}
    (oneHashed : HashedAs hash left one) (otherHashed : HashedAs hash right other) :
    one = other := by
  refine Clash.eq_of_hash_eq matching.clean (List.mem_append_left _ oneHashed.member)
    (List.mem_append_right _ otherHashed.member) ?_
  calc hash one = left.root hash := oneHashed.root.symm
    _ = right.root hash := matching.same
    _ = hash other := otherHashed.root

/-- No node with a string of its own has the hash of nothing. -/
theorem root_ne_zero (matching : Matching hash left right) {string : Bytes}
    (hashed : HashedAs hash left string) : right.root hash ≠ Hash.zero 32 := by
  rw [← matching.same, hashed.root]
  exact Clash.hash_ne_zero matching.clean (List.mem_append_left _ hashed.member)

end Matching

/-! ## Shapes with one hash -/

/-- Placed entries of which no item is hashed as an inner node. -/
structure Sealed (depth : Nat) (entries : Entries) : Prop extends Placed depth entries where
  outside : ∀ entry ∈ entries, entry.2.use ≠ .innerNode

theorem Sealed.routed {depth : Nat} {entries : Entries} (closed : Sealed depth entries)
    (slot : Fin 16) : Sealed (depth + 1) (routed depth slot entries) where
  toPlaced := closed.toPlaced.routed slot
  outside entry member := closed.outside entry (mem_routed.mp member).1

section Shapes

variable {levels depth : Nat} {entries left right : Entries}

/-- What is hashed for an inner node with entries. -/
def shapeBytes (hash : HashFunction) (levels depth : Nat) (entries : Entries) : Bytes :=
  innerBytes fun slot => (slotNode (shape levels (depth + 1)) (routed depth slot entries)).root hash

private theorem hashed_shape (occupied : entries ≠ []) :
    (shape (levels + 1) depth entries).hashed hash =
      shapeBytes hash levels depth entries :: (List.finRange 16).flatMap fun slot =>
        (slotNode (shape levels (depth + 1)) (routed depth slot entries)).hashed hash := by
  rw [shape, hashed, if_neg (mt (all_isEmpty_iff levels depth).mp occupied)]
  rfl

private theorem shape_hashedAs (occupied : entries ≠ []) :
    HashedAs hash (shape (levels + 1) depth entries) (shapeBytes hash levels depth entries) where
  member := by
    rw [hashed_shape occupied]
    exact List.mem_cons_self
  root := by
    rw [shape, TreeNode.root, if_neg (mt (all_isEmpty_iff levels depth).mp occupied)]
    rfl

/-- A slot with one entry is hashed as a leaf, and one with several as an inner node:
two entries cannot lie behind the last half octet, so there is a level left. -/
theorem slotNode_hashedAs (total : depth + levels = 64) (placed : Placed depth entries)
    (occupied : entries ≠ []) :
    (∃ entry, entries = [entry] ∧
      HashedAs hash (slotNode (shape levels depth) entries) (leafBytes entry.1 entry.2)) ∨
    2 ≤ entries.length ∧ slotNode (shape levels depth) entries = shape levels depth entries ∧
      ∃ children, HashedAs hash (slotNode (shape levels depth) entries) (innerBytes children) := by
  rcases entries with _ | ⟨one, _ | ⟨other, rest⟩⟩
  · exact absurd rfl occupied
  · exact .inl ⟨one, rfl, List.mem_singleton.mpr rfl, rfl⟩
  · cases levels with
    | zero =>
        have deepest : depth = 64 := total
        subst deepest
        exact absurd placed.length_le_one (by simp)
    | succ levels =>
        exact .inr ⟨by simp, rfl, _, shape_hashedAs occupied⟩

private theorem occupied_of_matching (total : depth + levels = 64) (placed : Placed depth left)
    (matching : Matching hash (slotNode (shape levels depth) left)
      (slotNode (shape levels depth) right))
    (occupied : left ≠ []) : right ≠ [] := by
  rintro rfl
  rcases slotNode_hashedAs total placed occupied with ⟨_, _, hashed⟩ | ⟨_, _, _, hashed⟩
  · exact matching.root_ne_zero hashed rfl
  · exact matching.root_ne_zero hashed rfl

/-- Matching slots have the same entries, if matching nodes that stand there do. -/
theorem dlookup_eq_of_slot (total : depth + levels = 64) (leftSealed : Sealed depth left)
    (rightSealed : Sealed depth right)
    (matching : Matching hash (slotNode (shape levels depth) left)
      (slotNode (shape levels depth) right))
    (several : 2 ≤ left.length →
      Matching hash (shape levels depth left) (shape levels depth right) →
        ∀ index, left.dlookup index = right.dlookup index) :
    ∀ index, left.dlookup index = right.dlookup index := by
  by_cases vacant : left = []
  · have both : right = [] := by
      by_contra occupied
      exact occupied_of_matching total rightSealed.toPlaced matching.symm occupied vacant
    rw [vacant, both]
    exact fun _ => rfl
  · have occupied := occupied_of_matching total leftSealed.toPlaced matching vacant
    rcases slotNode_hashedAs total leftSealed.toPlaced vacant with
      ⟨one, leftAlone, leftHashed⟩ | ⟨leftSeveral, leftNode, children, leftHashed⟩ <;>
    rcases slotNode_hashedAs total rightSealed.toPlaced occupied with
      ⟨other, rightAlone, rightHashed⟩ | ⟨_, rightNode, others, rightHashed⟩
    · obtain ⟨indexes, items⟩ := leafBytes_inj (matching.string_eq leftHashed rightHashed)
      rw [leftAlone, rightAlone, Sigma.ext indexes (heq_of_eq items)]
      exact fun _ => rfl
    · have outside := leftSealed.outside one (leftAlone ▸ List.mem_singleton.mpr rfl)
      exact absurd (matching.string_eq leftHashed rightHashed)
        (leafBytes_ne_innerBytes outside others)
    · have outside := rightSealed.outside other (rightAlone ▸ List.mem_singleton.mpr rfl)
      exact absurd (matching.string_eq leftHashed rightHashed).symm
        (leafBytes_ne_innerBytes outside children)
    · rw [leftNode, rightNode] at matching
      exact several leftSeveral matching

theorem Matching.slot (leftOccupied : left ≠ []) (rightOccupied : right ≠ [])
    (matching : Matching hash (shape (levels + 1) depth left) (shape (levels + 1) depth right))
    (slot : Fin 16) :
    Matching hash (slotNode (shape levels (depth + 1)) (routed depth slot left))
      (slotNode (shape levels (depth + 1)) (routed depth slot right)) := by
  have strings := matching.string_eq (shape_hashedAs leftOccupied) (shape_hashedAs rightOccupied)
  refine ⟨congrFun (innerBytes_inj strings) slot, fun clash => matching.clean (clash.mono ?_)⟩
  have below : ∀ {entries : Entries}, entries ≠ [] →
      (slotNode (shape levels (depth + 1)) (routed depth slot entries)).hashed hash ⊆
        (shape (levels + 1) depth entries).hashed hash := by
    intro entries occupied string member
    rw [hashed_shape occupied]
    exact List.mem_cons_of_mem _ (List.mem_flatMap.mpr ⟨slot, List.mem_finRange slot, member⟩)
  exact List.append_subset.mpr
    ⟨List.Subset.trans (below leftOccupied) (List.subset_append_left _ _),
      List.Subset.trans (below rightOccupied) (List.subset_append_right _ _)⟩

private theorem eq_nil_of_matching
    (matching : Matching hash (shape (levels + 1) depth left) (shape (levels + 1) depth right))
    (vacant : left = []) : right = [] := by
  by_contra occupied
  subst vacant
  exact matching.symm.root_ne_zero (shape_hashedAs occupied) (root_shape_nil hash levels depth)

/-- Matching nodes have the same entries, if the matching nodes below them do. -/
theorem dlookup_eq_of_slots (total : depth + (levels + 1) = 64) (leftSealed : Sealed depth left)
    (rightSealed : Sealed depth right)
    (matching : Matching hash (shape (levels + 1) depth left) (shape (levels + 1) depth right))
    (several : ∀ slot, 2 ≤ (routed depth slot left).length →
      Matching hash (shape levels (depth + 1) (routed depth slot left))
        (shape levels (depth + 1) (routed depth slot right)) →
      ∀ index, (routed depth slot left).dlookup index = (routed depth slot right).dlookup index) :
    ∀ index, left.dlookup index = right.dlookup index := by
  by_cases vacant : left = []
  · rw [vacant, eq_nil_of_matching matching vacant]
    exact fun _ => rfl
  · have occupied : right ≠ [] := fun none => vacant (eq_nil_of_matching matching.symm none)
    intro index
    rw [← dlookup_routed depth index left, ← dlookup_routed depth index right]
    exact dlookup_eq_of_slot (by omega) (leftSealed.routed _) (rightSealed.routed _)
      (matching.slot vacant occupied _) (several _) index

private theorem dlookup_eq_of_matching (total : depth + (levels + 1) = 64)
    (leftSealed : Sealed depth left) (rightSealed : Sealed depth right)
    (matching : Matching hash (shape (levels + 1) depth left) (shape (levels + 1) depth right)) :
    ∀ index, left.dlookup index = right.dlookup index := by
  induction levels generalizing depth left right with
  | zero =>
      refine dlookup_eq_of_slots total leftSealed rightSealed matching fun slot twice _ => ?_
      have deepest : depth + 1 = 64 := total
      have alone := (leftSealed.routed slot).toPlaced
      rw [deepest] at alone
      exact absurd alone.length_le_one (by omega)
  | succ levels inductionHypothesis =>
      refine dlookup_eq_of_slots total leftSealed rightSealed matching fun slot _ below => ?_
      exact inductionHypothesis (by omega) (leftSealed.routed slot) (rightSealed.routed slot) below

end Shapes

end TreeNode

/-! ## Trees with one hash -/

namespace HashTree

variable {hash : HashFunction}

private theorem contents_eq_of_matching {left right : Contents TreeItem}
    (leftOutside : ∀ index item, left.lookup index = some item → item.use ≠ .innerNode)
    (rightOutside : ∀ index item, right.lookup index = some item → item.use ≠ .innerNode)
    (matching : TreeNode.Matching hash (ofContents left).top (ofContents right).top) :
    left = right := by
  induction left, right using Finmap.induction_on₂ with
  | H left right =>
      have closed : ∀ list : AList fun _ : Hash 32 => TreeItem,
          (∀ index item, list.lookup index = some item → item.use ≠ .innerNode) →
            TreeNode.Sealed 0 list.entries := by
        intro list outside
        refine ⟨TreeNode.Placed.top list.nodupKeys, fun entry member => ?_⟩
        exact outside entry.1 entry.2 (AList.mem_lookup_iff.mpr member)
      refine Finmap.ext_lookup fun index => ?_
      exact TreeNode.dlookup_eq_of_matching (show 0 + (63 + 1) = 64 from rfl)
        (closed left leftOutside) (closed right rightOutside) matching index

theorem contents_eq_of_clean {left right : List (Hash 32 × TreeItem)}
    (leftOutside : ∀ addition ∈ left, addition.2.use ≠ .innerNode)
    (rightOutside : ∀ addition ∈ right, addition.2.use ≠ .innerNode)
    (same : (ofList left).root hash = (ofList right).root hash)
    (clean : ¬ Clash hash ((ofList left).hashed hash ++ (ofList right).hashed hash)) :
    contents left = contents right := by
  rw [ofList_eq_ofContents, ofList_eq_ofContents] at same clean
  refine contents_eq_of_matching (fun index item found => ?_) (fun index item found => ?_)
    ⟨same, clean⟩
  · exact leftOutside _ (mem_of_lookup_contents found)
  · exact rightOutside _ (mem_of_lookup_contents found)

/-- Trees with one hash, to which nothing was added that is hashed as an inner node,
hold the same items under the same indexes, or the strings that are hashed for
them clash. -/
theorem contents_eq_or_clash {left right : List (Hash 32 × TreeItem)}
    (leftOutside : ∀ addition ∈ left, addition.2.use ≠ .innerNode)
    (rightOutside : ∀ addition ∈ right, addition.2.use ≠ .innerNode)
    (same : (ofList left).root hash = (ofList right).root hash) :
    contents left = contents right ∨
      Clash hash ((ofList left).hashed hash ++ (ofList right).hashed hash) := by
  by_cases clash : Clash hash ((ofList left).hashed hash ++ (ofList right).hashed hash)
  · exact .inr clash
  · exact .inl (contents_eq_of_clean leftOutside rightOutside same clash)

/-- Two items make trees with one hash, whichever of them comes first. -/
theorem contents_eq_or_clash_swapped :
    let one := (nearIndex 1, octetItem 1)
    let other := (nearIndex 2, octetItem 2)
    (ofList [one, other]).root sha512Half = (ofList [other, one]).root sha512Half ∧
      (contents [one, other] = contents [other, one] ∨
        Clash sha512Half ((ofList [one, other]).hashed sha512Half ++
          (ofList [other, one]).hashed sha512Half)) := by
  intro one other
  have same : (ofList [one, other]).root sha512Half = (ofList [other, one]).root sha512Half := by
    rw [root_ofList, root_ofList, contents_perm (List.Perm.swap other one []) (by decide)]
  exact ⟨same, contents_eq_or_clash (by decide) (by decide) same⟩

end HashTree

end LedgerWire
