import LedgerWire.HashTree
import Mathlib.Data.List.GetD
import Mathlib.Data.List.Sigma

/-!
# The shape of a tree

A tree is as shallow as its indexes allow, so its shape is told by its entries
alone: below each slot of a node there is nothing, the leaf of the one entry that
is routed there, or a node one half octet deeper. An item that is added to the
tree of some entries gives the tree of the entries with the item among them,
however many leaves have to be pushed down for it.
-/

namespace LedgerWire

namespace Hash

/-- A hash is told by its half octets. -/
theorem ext_nibble {width : Nat} {left right : Hash width}
    (same : ∀ depth < 2 * width, left.nibble depth = right.nibble depth) : left = right := by
  apply Hash.ext
  apply List.ext_getElem (left.length_bytes.trans right.length_bytes.symm)
  intro position leftBound rightBound
  have bound : position < width := left.length_bytes ▸ leftBound
  have high := congrArg Fin.val (same (2 * position) (by omega))
  have low := congrArg Fin.val (same (2 * position + 1) (by omega))
  have even : 2 * position / 2 = position := by omega
  have odd : (2 * position + 1) / 2 = position := by omega
  simp only [nibble, even, odd, Nat.mul_mod_right, Nat.mul_add_mod_self_left, Nat.one_mod,
    Nat.one_ne_zero, if_true, if_false, Fin.ofNat, List.getD_eq_getElem _ _ leftBound,
    List.getD_eq_getElem _ _ rightBound] at high low
  have leftOctet := left.bytes[position].toNat_lt
  have rightOctet := right.bytes[position].toNat_lt
  rw [← UInt8.toNat_inj]
  omega

end Hash

namespace TreeNode

/-- An index with the item under it. -/
abbrev Entry := (_ : Hash 32) × TreeItem

abbrev Entries := List Entry

/-! ## Routing -/

/-- The entries that a node at a depth has in a slot. -/
def routed (depth : Nat) (slot : Fin 16) (entries : Entries) : Entries :=
  entries.filter fun entry => entry.1.nibble depth = slot

theorem mem_routed {depth : Nat} {slot : Fin 16} {entries : Entries}
    {entry : Entry} :
    entry ∈ routed depth slot entries ↔ entry ∈ entries ∧ entry.1.nibble depth = slot := by
  simp [routed]

private theorem notMem_keys_routed {depth : Nat} {slot : Fin 16} {index : Hash 32}
    (other : index.nibble depth ≠ slot) (entries : Entries) :
    index ∉ (routed depth slot entries).keys := by
  rw [List.mem_keys]
  rintro ⟨item, member⟩
  rw [mem_routed] at member
  exact other member.2

private theorem routed_kerase (depth : Nat) (slot : Fin 16) (index : Hash 32) (entries : Entries) :
    routed depth slot (entries.kerase index) = (routed depth slot entries).kerase index := by
  induction entries with
  | nil =>
      rfl
  | cons entry rest inductionHypothesis =>
      by_cases same : index = entry.1
      · rw [List.kerase_cons_eq same]
        by_cases here : entry.1.nibble depth = slot
        · rw [routed, routed, List.filter_cons_of_pos (by simpa using here),
            List.kerase_cons_eq same]
        · have absent := notMem_keys_routed (same ▸ here) rest
          rw [routed, routed, List.filter_cons_of_neg (by simpa using here)]
          exact (List.kerase_of_notMem_keys absent).symm
      · rw [List.kerase_cons_ne same]
        by_cases here : entry.1.nibble depth = slot
        · rw [routed, routed, List.filter_cons_of_pos (by simpa using here),
            List.filter_cons_of_pos (by simpa using here), List.kerase_cons_ne same]
          exact congrArg (entry :: ·) inductionHypothesis
        · rw [routed, routed, List.filter_cons_of_neg (by simpa using here),
            List.filter_cons_of_neg (by simpa using here)]
          exact inductionHypothesis

/-- An item goes to the slot of its index. -/
theorem routed_kinsert (depth : Nat) (index : Hash 32) (item : TreeItem) (entries : Entries) :
    routed depth (index.nibble depth) (entries.kinsert index item) =
      (routed depth (index.nibble depth) entries).kinsert index item := by
  rw [List.kinsert_def, List.kinsert_def, ← routed_kerase]
  exact List.filter_cons_of_pos (by simp)

private theorem routed_kinsert_of_ne {depth : Nat} {slot : Fin 16} {index : Hash 32}
    (other : index.nibble depth ≠ slot) (item : TreeItem) (entries : Entries) :
    routed depth slot (entries.kinsert index item) = routed depth slot entries := by
  rw [List.kinsert_def]
  calc routed depth slot (⟨index, item⟩ :: entries.kerase index)
      = routed depth slot (entries.kerase index) :=
        List.filter_cons_of_neg (by simpa using other)
    _ = (routed depth slot entries).kerase index := routed_kerase depth slot index entries
    _ = routed depth slot entries :=
        List.kerase_of_notMem_keys (notMem_keys_routed other entries)

theorem dlookup_routed (depth : Nat) (index : Hash 32) (entries : Entries) :
    (routed depth (index.nibble depth) entries).dlookup index = entries.dlookup index := by
  induction entries with
  | nil =>
      rfl
  | cons entry rest inductionHypothesis =>
      by_cases same : index = entry.1
      · subst same
        rw [routed, List.filter_cons_of_pos (by simp)]
        have head : ∀ others : Entries, (entry :: others).dlookup entry.1 = some entry.2 :=
          fun others => List.dlookup_cons_eq (β := fun _ => TreeItem) others entry.1 entry.2
        exact (head _).trans (head rest).symm
      · rw [List.dlookup_cons_ne rest entry same, ← inductionHypothesis]
        by_cases here : entry.1.nibble depth = index.nibble depth
        · rw [routed, List.filter_cons_of_pos (by simpa using here)]
          exact List.dlookup_cons_ne _ entry same
        · rw [routed, List.filter_cons_of_neg (by simpa using here)]
          rfl

/-! ## Entries that lie below a node -/

/-- Entries of which no two have one index, while all agree in the half octets in
front of a depth. -/
structure Placed (depth : Nat) (entries : Entries) : Prop where
  distinct : entries.NodupKeys
  together : ∀ one ∈ entries, ∀ other ∈ entries, ∀ level < depth,
    one.1.nibble level = other.1.nibble level

namespace Placed

variable {depth : Nat} {entries : Entries}

theorem top (distinct : entries.NodupKeys) : Placed 0 entries where
  distinct := distinct
  together _ _ _ _ _ impossible := absurd impossible (Nat.not_lt_zero _)

theorem routed (placed : Placed depth entries) (slot : Fin 16) :
    Placed (depth + 1) (routed depth slot entries) where
  distinct := placed.distinct.sublist List.filter_sublist
  together one oneMember other otherMember level bound := by
    rw [mem_routed] at oneMember otherMember
    obtain ⟨oneHeld, oneSlot⟩ := oneMember
    obtain ⟨otherHeld, otherSlot⟩ := otherMember
    rcases Nat.lt_succ_iff_lt_or_eq.mp bound with above | rfl
    · exact placed.together one oneHeld other otherHeld level above
    · exact oneSlot.trans otherSlot.symm

/-- Behind the last half octet no two entries are left. -/
theorem length_le_one (placed : Placed 64 entries) : entries.length ≤ 1 := by
  rcases entries with _ | ⟨one, _ | ⟨other, rest⟩⟩
  · exact Nat.zero_le 1
  · exact Nat.le_refl 1
  · have same : one.1 = other.1 :=
      Hash.ext_nibble fun level bound =>
        placed.together one (by simp) other (by simp) level bound
    exact absurd (List.mem_map_of_mem List.mem_cons_self)
      (same ▸ (List.nodupKeys_cons.mp placed.distinct).1)

end Placed

/-! ## Shapes -/

/-- What stands in a slot: no node, the leaf of a single entry, or the node that
`deeper` makes of several. -/
def slotNode (deeper : Entries → TreeNode) : Entries → TreeNode
  | [] => empty
  | [entry] => leaf entry.1 entry.2
  | entries => deeper entries

/-- The inner node at a depth for the entries below it, whose indexes have `levels`
half octets from there on. -/
def shape : (levels depth : Nat) → Entries → TreeNode
  | 0, depth, _ => inner depth fun _ => empty
  | levels + 1, depth, entries =>
      inner depth fun slot => slotNode (shape levels (depth + 1)) (routed depth slot entries)

private theorem slotNode_of_two_le {entries : Entries} (several : 2 ≤ entries.length)
    (deeper : Entries → TreeNode) : slotNode deeper entries = deeper entries := by
  rcases entries with _ | ⟨one, _ | ⟨other, rest⟩⟩
  · exact absurd several (by simp)
  · exact absurd several (by simp)
  · rfl

private theorem slotNode_perm {deeper : Entries → TreeNode}
    (unordered : ∀ {left right : Entries}, left.Perm right → deeper left = deeper right)
    {left right : Entries} (same : left.Perm right) :
    slotNode deeper left = slotNode deeper right := by
  rcases left with _ | ⟨one, _ | ⟨other, rest⟩⟩
  · rw [same.nil_eq]
  · rw [List.singleton_perm.mp same]
  · have several : 2 ≤ right.length := by
      rw [← same.length_eq]
      simp
    rw [slotNode_of_two_le several, slotNode_of_two_le (by simp)]
    exact unordered same

theorem shape_perm {levels depth : Nat} {left right : Entries} (same : left.Perm right) :
    shape levels depth left = shape levels depth right := by
  induction levels generalizing depth left right with
  | zero =>
      rfl
  | succ levels inductionHypothesis =>
      rw [shape, shape]
      congr 1
      funext slot
      exact slotNode_perm (fun inner => inductionHypothesis inner) (same.filter _)

private theorem isEmpty_slotNode (levels depth : Nat) (entries : Entries) :
    (slotNode (shape levels depth) entries).isEmpty = entries.isEmpty := by
  rcases entries with _ | ⟨one, _ | ⟨other, rest⟩⟩
  · rfl
  · rfl
  · cases levels with
    | zero =>
        rfl
    | succ levels =>
        rfl

theorem all_isEmpty_iff (levels depth : Nat) {entries : Entries} :
    ((List.finRange 16).all fun slot =>
        (slotNode (shape levels (depth + 1)) (routed depth slot entries)).isEmpty) = true ↔
      entries = [] := by
  simp only [isEmpty_slotNode, List.all_eq_true, List.mem_finRange, true_imp_iff,
    List.isEmpty_iff]
  constructor
  · intro vacant
    refine List.eq_nil_iff_forall_not_mem.mpr fun entry member => ?_
    have here : entry ∈ routed depth (entry.1.nibble depth) entries := by
      rw [mem_routed]
      exact ⟨member, rfl⟩
    rw [vacant] at here
    exact List.not_mem_nil here
  · rintro rfl slot
    rfl

theorem root_shape_nil (hash : HashFunction) (levels depth : Nat) :
    (shape (levels + 1) depth []).root hash = Hash.zero 32 := by
  rw [shape, root, if_pos ((all_isEmpty_iff levels depth).mpr rfl)]

/-! ## Adding to a shape -/

/-- Two leaves are pushed down to the first half octet in which they differ: up to there
both go on in one slot, and there each is alone in its own. -/
theorem fork_eq_shape {levels depth : Nat} (total : depth + levels = 64)
    {firstIndex secondIndex : Hash 32} {first second : TreeItem}
    (placed : Placed depth [⟨secondIndex, second⟩, ⟨firstIndex, first⟩]) :
    fork levels depth firstIndex first secondIndex second =
      shape levels depth [⟨secondIndex, second⟩, ⟨firstIndex, first⟩] := by
  induction levels generalizing depth with
  | zero =>
      have deepest : depth = 64 := total
      subst deepest
      exact absurd placed.length_le_one (by simp)
  | succ levels inductionHypothesis =>
      rw [fork, shape]
      by_cases same : firstIndex.nibble depth = secondIndex.nibble depth
      · have both : routed depth (secondIndex.nibble depth)
            [⟨secondIndex, second⟩, ⟨firstIndex, first⟩] =
              [⟨secondIndex, second⟩, ⟨firstIndex, first⟩] := by
          simp [routed, same]
        have below := placed.routed (secondIndex.nibble depth)
        rw [both] at below
        rw [if_pos same, single]
        congr 1
        funext slot
        by_cases here : slot = secondIndex.nibble depth
        · rw [if_pos here, here, both, inductionHypothesis (by omega) below]
          rfl
        · have none : routed depth slot [⟨secondIndex, second⟩, ⟨firstIndex, first⟩] = [] := by
            simp [routed, same, Ne.symm here]
          rw [if_neg here, none]
          rfl
      · rw [if_neg same]
        congr 1
        funext slot
        by_cases here : slot = secondIndex.nibble depth
        · subst here
          simp [routed, slotNode, same]
        · by_cases there : slot = firstIndex.nibble depth
          · subst there
            simp [routed, slotNode, Ne.symm same, same]
          · simp [routed, slotNode, here, there, Ne.symm here, Ne.symm there]

private theorem two_le_length_kinsert {entries : Entries} (several : 2 ≤ entries.length)
    (index : Hash 32) (item : TreeItem) : 2 ≤ (entries.kinsert index item).length := by
  have erased : entries.length - 1 ≤ (entries.kerase index).length := by
    have counted := List.length_eraseP (l := entries) (p := fun entry : Entry => index = entry.1)
    rw [List.kerase, counted]
    split <;> omega
  rw [List.kinsert_def, List.length_cons]
  omega

/-- A slot takes an item as its entries do, if the node that several entries have
there does; a leaf that is there is pushed down together with the new one. -/
theorem add_slotNode {levels depth : Nat} (total : depth + levels = 64) {entries : Entries}
    {index : Hash 32} {item : TreeItem} (placed : Placed depth (entries.kinsert index item))
    (several : 2 ≤ entries.length → (shape levels depth entries).add index item depth =
      (shape levels depth (entries.kinsert index item), entries.dlookup index)) :
    (slotNode (shape levels depth) entries).add index item depth =
      (slotNode (shape levels depth) (entries.kinsert index item), entries.dlookup index) := by
  rcases entries with _ | ⟨⟨other, held⟩, _ | ⟨next, rest⟩⟩
  · rfl
  · by_cases same : other = index
    · subst same
      have after : List.kinsert other item [(⟨other, held⟩ : Entry)] = [⟨other, item⟩] :=
        congrArg (_ :: ·) (List.kerase_cons_eq rfl)
      have present : List.dlookup other [(⟨other, held⟩ : Entry)] = some held :=
        List.dlookup_cons_eq (β := fun _ => TreeItem) [] other held
      rw [after, present]
      exact if_pos rfl
    · have apart : index ≠ other := Ne.symm same
      have after : List.kinsert index item [(⟨other, held⟩ : Entry)] =
          [⟨index, item⟩, ⟨other, held⟩] :=
        congrArg (_ :: ·) (List.kerase_cons_ne apart)
      have absent : List.dlookup index [(⟨other, held⟩ : Entry)] = none :=
        List.dlookup_cons_ne (β := fun _ => TreeItem) [] ⟨other, held⟩ apart
      rw [after] at placed
      rw [after, absent]
      change (leaf other held).add index item depth = _
      rw [add, if_neg same, show 64 - depth = levels by omega, fork_eq_shape total placed]
      rfl
  · rw [slotNode_of_two_le (by simp), slotNode_of_two_le (two_le_length_kinsert (by simp) _ _)]
    exact several (by simp)

/-- A node takes an item as its entries do, if the node below the slot of the item
does. -/
theorem add_shape_succ {levels depth : Nat} (total : depth + (levels + 1) = 64)
    {entries : Entries} {index : Hash 32} {item : TreeItem}
    (placed : Placed depth (entries.kinsert index item))
    (several : 2 ≤ (routed depth (index.nibble depth) entries).length →
      (shape levels (depth + 1) (routed depth (index.nibble depth) entries)).add index item
          (depth + 1) =
        (shape levels (depth + 1) ((routed depth (index.nibble depth) entries).kinsert index item),
          (routed depth (index.nibble depth) entries).dlookup index))
    (depthBefore : Nat) :
    (shape (levels + 1) depth entries).add index item depthBefore =
      (shape (levels + 1) depth (entries.kinsert index item), entries.dlookup index) := by
  have below := placed.routed (index.nibble depth)
  rw [routed_kinsert] at below
  have slotAdded := add_slotNode (by omega) below several
  rw [dlookup_routed] at slotAdded
  rw [shape, add, slotAdded, shape]
  refine congrArg (fun branches => (inner depth branches, entries.dlookup index)) ?_
  funext slot
  by_cases here : slot = index.nibble depth
  · rw [if_pos here, here, routed_kinsert]
  · rw [if_neg here, routed_kinsert_of_ne (Ne.symm here)]

/-- An item is added to the tree of the entries as it is added to the entries. -/
theorem add_shape {levels depth : Nat} (total : depth + (levels + 1) = 64) {entries : Entries}
    {index : Hash 32} {item : TreeItem} (placed : Placed depth entries)
    (placedAfter : Placed depth (entries.kinsert index item)) (depthBefore : Nat) :
    (shape (levels + 1) depth entries).add index item depthBefore =
      (shape (levels + 1) depth (entries.kinsert index item), entries.dlookup index) := by
  induction levels generalizing depth entries depthBefore with
  | zero =>
      refine add_shape_succ total placedAfter (fun several => ?_) depthBefore
      have deepest : depth + 1 = 64 := by omega
      have alone := placed.routed (index.nibble depth)
      rw [deepest] at alone
      exact absurd alone.length_le_one (by omega)
  | succ levels inductionHypothesis =>
      refine add_shape_succ total placedAfter (fun _ => ?_) depthBefore
      have below := placedAfter.routed (index.nibble depth)
      rw [routed_kinsert] at below
      exact inductionHypothesis (by omega) (placed.routed _) below (depth + 1)

end TreeNode

end LedgerWire
