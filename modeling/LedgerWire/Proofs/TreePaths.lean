import LedgerWire.Proofs.TreeContents
import Mathlib.Algebra.BigOperators.Fin
import Mathlib.Algebra.Order.BigOperators.Group.Finset

/-!
# Paths in a tree

From the root a path of half octets leads to one node at most. Whatever has been
added, the path fits the node that it leads to: an inner node knows its length, a
leaf has an index that begins with it, and below an inner node other than the root
there are two leaves at least. So two indexes that meet part above the last half
octet, and the recursion that adds a leaf node by node ends and never asks an index
for a half octet that it does not have.
-/

namespace LedgerWire

namespace Hash

variable {width : Nat} {hash left right : Hash width} {path : List (Fin 16)}

/-- The half octets in their order. -/
def nibbles (hash : Hash width) : List (Fin 16) := (List.range (2 * width)).map hash.nibble

/-- The half octet at a depth, if there is an octet that it is a half of. -/
def nibble? (hash : Hash width) (depth : Nat) : Option (Fin 16) :=
  if depth / 2 < hash.bytes.length then some (hash.nibble depth) else none

private theorem nibble?_eq (hash : Hash width) (depth : Nat) :
    hash.nibble? depth = if depth < 2 * width then some (hash.nibble depth) else none := by
  rw [nibble?, hash.length_bytes]
  exact if_congr (by omega) rfl rfl

private theorem length_nibbles (hash : Hash width) : hash.nibbles.length = 2 * width := by
  simp [nibbles]

private theorem length_le_of_leads (leads : path <+: hash.nibbles) : path.length ≤ 2 * width :=
  hash.length_nibbles ▸ leads.length_le

private theorem nibble_of_leads (leads : path <+: hash.nibbles) {level : Nat}
    (bound : level < path.length) : path[level] = hash.nibble level := by
  simp [leads.getElem bound, nibbles]

/-- A path to a hash goes on with the next half octet of it. -/
theorem leads_succ (leads : path <+: hash.nibbles) (room : path.length < 2 * width) :
    path ++ [hash.nibble path.length] <+: hash.nibbles := by
  have bound : path.length < hash.nibbles.length := hash.length_nibbles ▸ room
  have next : hash.nibbles[path.length] = hash.nibble path.length := by simp [nibbles]
  have longer : hash.nibbles.take path.length ++ [hash.nibbles[path.length]] =
      hash.nibbles.take (path.length + 1) := List.take_append_getElem bound
  rw [← List.prefix_iff_eq_take.mp leads, next] at longer
  rw [longer]
  exact List.take_prefix _ _

/-- A path of all half octets leads to one hash only. -/
theorem eq_of_leads (leftLeads : path <+: left.nibbles) (rightLeads : path <+: right.nibbles)
    (whole : path.length = 2 * width) : left = right := by
  apply ext_nibble
  intro depth bound
  rw [← whole] at bound
  rw [← nibble_of_leads leftLeads bound, ← nibble_of_leads rightLeads bound]

end Hash

namespace TreeNode

/-! ## What a path leads to -/

/-- The node that a path leads to from a node. -/
def below? : TreeNode → List (Fin 16) → Option TreeNode
  | node, [] => some node
  | inner _ branches, slot :: path => below? (branches slot) path
  | _, _ :: _ => none

/-- The indexes of the leaves at a node and below. -/
def indexes : TreeNode → List (Hash 32)
  | empty => []
  | leaf index _ => [index]
  | inner _ branches => (List.finRange 16).flatMap fun slot => indexes (branches slot)

/-- What is asked of the node that a path leads to from the root. -/
def Fits (path : List (Fin 16)) : TreeNode → Prop
  | empty => True
  | leaf index _ => path <+: index.nibbles
  | inner depth branches =>
      depth = path.length ∧ depth ≤ 63 ∧ (path ≠ [] → 2 ≤ (inner depth branches).indexes.length)

/-- At the end of a path from the root the node may stand, with all that is below. -/
def Stands (path : List (Fin 16)) (node : TreeNode) : Prop :=
  ∀ further reached, node.below? further = some reached → reached.Fits (path ++ further)

/-- The branches with another node in a slot. -/
def withChild (slot : Fin 16) (child : TreeNode) (branches : Fin 16 → TreeNode) :
    Fin 16 → TreeNode :=
  fun other => if other = slot then child else branches other

section Standing

variable {path : List (Fin 16)} {depth : Nat} {slot : Fin 16} {child : TreeNode}
  {branches : Fin 16 → TreeNode} {index : Hash 32}

private theorem withChild_same : withChild slot child branches slot = child := if_pos rfl

private theorem withChild_of_ne {other : Fin 16} (apart : other ≠ slot) :
    withChild slot child branches other = branches other := if_neg apart

private theorem withChild_withChild (first : TreeNode) :
    withChild slot child (withChild slot first branches) = withChild slot child branches := by
  funext other
  unfold withChild
  split <;> rfl

private theorem stands_empty : Stands path empty := by
  rintro (_ | ⟨slot, further⟩) reached found
  · cases found
    trivial
  · cases found

private theorem stands_leaf (leads : path <+: index.nibbles) (item : TreeItem) :
    Stands path (leaf index item) := by
  rintro (_ | ⟨slot, further⟩) reached found
  · cases found
    rwa [List.append_nil]
  · cases found

theorem stands_inner_iff :
    Stands path (inner depth branches) ↔
      (inner depth branches).Fits path ∧ ∀ slot, Stands (path ++ [slot]) (branches slot) := by
  constructor
  · intro stands
    refine ⟨?_, fun slot further reached found => ?_⟩
    · have here := stands [] _ rfl
      rwa [List.append_nil] at here
    · have there := stands (slot :: further) reached found
      rwa [List.append_cons] at there
  · rintro ⟨here, there⟩ (_ | ⟨slot, further⟩) reached found
    · cases found
      rwa [List.append_nil]
    · rw [List.append_cons]
      exact there slot further reached found

private theorem stands_withChild (stands : ∀ other, Stands (path ++ [other]) (branches other))
    (placed : Stands (path ++ [slot]) child) (other : Fin 16) :
    Stands (path ++ [other]) (withChild slot child branches other) := by
  by_cases here : other = slot
  · rwa [here, withChild_same]
  · rw [withChild_of_ne here]
    exact stands other

/-! ### Leaves -/

private theorem length_indexes_inner (depth : Nat) (branches : Fin 16 → TreeNode) :
    (inner depth branches).indexes.length = ∑ slot, (branches slot).indexes.length := by
  rw [indexes, List.length_flatMap, Fin.sum_univ_def]

private theorem length_indexes_le (depth : Nat) (branches : Fin 16 → TreeNode) (slot : Fin 16) :
    (branches slot).indexes.length ≤ (inner depth branches).indexes.length := by
  rw [length_indexes_inner]
  exact Finset.single_le_sum (f := fun slot => (branches slot).indexes.length)
    (fun _ _ => Nat.zero_le _) (Finset.mem_univ slot)

/-- Nodes in two slots count both. -/
theorem length_indexes_add_le (depth : Nat) (branches : Fin 16 → TreeNode) {slot other : Fin 16}
    (apart : slot ≠ other) :
    (branches slot).indexes.length + (branches other).indexes.length ≤
      (inner depth branches).indexes.length := by
  rw [length_indexes_inner,
    ← Finset.sum_pair (f := fun slot => (branches slot).indexes.length) apart]
  exact Finset.sum_le_sum_of_subset (Finset.subset_univ _)

end Standing

/-! ## Adding -/

section Adding

variable {path : List (Fin 16)} {calls levels depth : Nat} {branches : Fin 16 → TreeNode}
  {index firstIndex secondIndex : Hash 32} {first second item : TreeItem}

private theorem fork_succ_of_eq (same : firstIndex.nibble depth = secondIndex.nibble depth) :
    fork (levels + 1) depth firstIndex first secondIndex second =
      inner depth (withChild (secondIndex.nibble depth)
        (fork levels (depth + 1) firstIndex first secondIndex second) fun _ => empty) :=
  if_pos same

private theorem fork_succ_of_ne (apart : firstIndex.nibble depth ≠ secondIndex.nibble depth) :
    fork (levels + 1) depth firstIndex first secondIndex second =
      inner depth (withChild (secondIndex.nibble depth) (leaf secondIndex second)
        (withChild (firstIndex.nibble depth) (leaf firstIndex first) fun _ => empty)) :=
  if_neg apart

private theorem add_inner (level : Nat) :
    (inner level branches).add index item depth =
      (inner level (withChild (index.nibble level)
        ((branches (index.nibble level)).add index item (level + 1)).1 branches),
        ((branches (index.nibble level)).add index item (level + 1)).2) := rfl

/-- Two leaves that are pushed down both stand at the end of their paths. -/
theorem stands_fork (first second : TreeItem) (total : path.length + levels = 64)
    (apart : firstIndex ≠ secondIndex) (firstLeads : path <+: firstIndex.nibbles)
    (secondLeads : path <+: secondIndex.nibbles) :
    Stands path (fork levels path.length firstIndex first secondIndex second) ∧
      2 ≤ (fork levels path.length firstIndex first secondIndex second).indexes.length := by
  induction levels generalizing path with
  | zero =>
      exact absurd (Hash.eq_of_leads firstLeads secondLeads total) apart
  | succ levels inductionHypothesis =>
      have firstNext := Hash.leads_succ firstLeads (by omega)
      have secondNext := Hash.leads_succ secondLeads (by omega)
      by_cases same : firstIndex.nibble path.length = secondIndex.nibble path.length
      · rw [same] at firstNext
        obtain ⟨stands, several⟩ := inductionHypothesis
          (by rw [List.length_append, List.length_singleton]; omega) firstNext secondNext
        rw [List.length_append, List.length_singleton] at stands several
        rw [fork_succ_of_eq same]
        have count := length_indexes_le path.length (withChild (secondIndex.nibble path.length)
          (fork levels (path.length + 1) firstIndex first secondIndex second) fun _ => empty)
          (secondIndex.nibble path.length)
        rw [withChild_same] at count
        refine ⟨stands_inner_iff.mpr ⟨⟨rfl, by omega, fun _ => by omega⟩, ?_⟩, by omega⟩
        exact stands_withChild (fun _ => stands_empty) stands
      · rw [fork_succ_of_ne same]
        have count := length_indexes_add_le path.length
          (withChild (secondIndex.nibble path.length) (leaf secondIndex second)
            (withChild (firstIndex.nibble path.length) (leaf firstIndex first) fun _ => empty))
          same
        rw [withChild_of_ne same, withChild_same, withChild_same] at count
        refine ⟨stands_inner_iff.mpr ⟨⟨rfl, by omega, fun _ => count⟩, ?_⟩, count⟩
        refine stands_withChild ?_ (stands_leaf secondNext second)
        exact stands_withChild (fun _ => stands_empty) (stands_leaf firstNext first)

/-- An item that is added below a node leaves it standing, and no leaf is lost. -/
theorem stands_add {node : TreeNode} (stands : Stands path node) (leads : path <+: index.nibbles)
    (item : TreeItem) :
    Stands path (node.add index item path.length).1 ∧
      node.indexes.length ≤ (node.add index item path.length).1.indexes.length := by
  induction node generalizing path with
  | empty =>
      exact ⟨stands_leaf leads item, Nat.zero_le _⟩
  | leaf other held =>
      by_cases same : other = index
      · rw [add, if_pos same]
        exact ⟨stands_leaf leads item, Nat.le_refl 1⟩
      · have bound := Hash.length_le_of_leads leads
        have otherLeads : path <+: other.nibbles := by
          have here := stands [] _ rfl
          rwa [List.append_nil] at here
        rw [add, if_neg same]
        obtain ⟨forked, several⟩ :=
          stands_fork held item (Nat.add_sub_of_le bound) same otherLeads leads
        exact ⟨forked, Nat.le_of_succ_le several⟩
  | inner depth branches inductionHypothesis =>
      obtain ⟨⟨rfl, shallow, several⟩, children⟩ := stands_inner_iff.mp stands
      have next := Hash.leads_succ leads (by omega)
      obtain ⟨child, kept⟩ := inductionHypothesis _ (children _) next
      rw [List.length_append, List.length_singleton] at child kept
      rw [add_inner]
      have count : (inner path.length branches).indexes.length ≤
          (inner path.length (withChild (index.nibble path.length)
            ((branches (index.nibble path.length)).add index item (path.length + 1)).1
            branches)).indexes.length := by
        rw [length_indexes_inner, length_indexes_inner]
        refine Finset.sum_le_sum fun slot _ => ?_
        by_cases here : slot = index.nibble path.length
        · rwa [here, withChild_same]
        · rw [withChild_of_ne here]
      refine ⟨stands_inner_iff.mpr ⟨⟨rfl, shallow, fun below => ?_⟩, ?_⟩, count⟩
      · exact (several below).trans count
      · exact stands_withChild children child

/-! ## The recursion that adds a leaf -/

/-- Adds a leaf to an inner node, one node after another, with at most so many calls
inside one another. A leaf that is in the way goes to a new node together with the one
that is added. There is no result if more calls are needed, if an index is asked for a
half octet that it does not have, or at a node that is no inner one. -/
def insert? : (calls : Nat) → Hash 32 → TreeItem → TreeNode →
    Option (TreeNode × Option TreeItem)
  | calls + 1, index, item, inner depth branches => do
      let slot ← index.nibble? depth
      match branches slot with
      | empty => some (inner depth (withChild slot (leaf index item) branches), none)
      | leaf other held =>
          if other = index then
            some (inner depth (withChild slot (leaf index item) branches), some held)
          else do
            let (one, _) ← insert? calls other held (inner (depth + 1) fun _ => empty)
            let (both, _) ← insert? calls index item one
            some (inner depth (withChild slot both branches), none)
      | inner level below => do
          let (child, replaced) ← insert? calls index item (inner level below)
          some (inner depth (withChild slot child branches), replaced)
  | _, _, _, _ => none

private theorem insert?_of_empty (room : depth < 64)
    (vacant : branches (index.nibble depth) = empty) :
    insert? (calls + 1) index item (inner depth branches) =
      some (inner depth (withChild (index.nibble depth) (leaf index item) branches), none) := by
  rw [insert?, Hash.nibble?_eq, if_pos room]
  simp only [Option.bind_eq_bind, Option.bind_some, vacant]

private theorem insert?_of_leaf {held : TreeItem} (room : depth < 64)
    (same : branches (index.nibble depth) = leaf index held) :
    insert? (calls + 1) index item (inner depth branches) =
      some (inner depth (withChild (index.nibble depth) (leaf index item) branches),
        some held) := by
  rw [insert?, Hash.nibble?_eq, if_pos room]
  simp only [Option.bind_eq_bind, Option.bind_some, same, if_pos]

private theorem insert?_of_other {other : Hash 32} {held : TreeItem} {one both : TreeNode}
    (room : depth < 64) (occupied : branches (index.nibble depth) = leaf other held)
    (apart : other ≠ index)
    (first : insert? calls other held (inner (depth + 1) fun _ => empty) = some (one, none))
    (second : insert? calls index item one = some (both, none)) :
    insert? (calls + 1) index item (inner depth branches) =
      some (inner depth (withChild (index.nibble depth) both branches), none) := by
  rw [insert?, Hash.nibble?_eq, if_pos room]
  simp only [Option.bind_eq_bind, Option.bind_some, occupied, if_neg apart, first, second]

private theorem insert?_of_inner {level : Nat} {below : Fin 16 → TreeNode} (room : depth < 64)
    (deeper : branches (index.nibble depth) = inner level below) :
    insert? (calls + 1) index item (inner depth branches) =
      (insert? calls index item (inner level below)).map fun added =>
        (inner depth (withChild (index.nibble depth) added.1 branches), added.2) := by
  rw [insert?, Hash.nibble?_eq, if_pos room]
  simp only [Option.bind_eq_bind, Option.bind_some, deeper]
  cases insert? calls index item (inner level below) <;> rfl

/-- Two leaves with one path are added to a new node as they are pushed down. -/
theorem insert?_fork (first second : TreeItem) (total : path.length + levels = 64)
    (enough : levels ≤ calls) (apart : firstIndex ≠ secondIndex)
    (firstLeads : path <+: firstIndex.nibbles) (secondLeads : path <+: secondIndex.nibbles) :
    ∃ one, insert? calls firstIndex first (inner path.length fun _ => empty) = some (one, none) ∧
      insert? calls secondIndex second one =
        some (fork levels path.length firstIndex first secondIndex second, none) := by
  induction levels generalizing path calls with
  | zero =>
      exact absurd (Hash.eq_of_leads firstLeads secondLeads total) apart
  | succ levels inductionHypothesis =>
      have room : path.length < 64 := by omega
      obtain ⟨fewer, rfl⟩ := Nat.exists_eq_add_one_of_ne_zero (Nat.ne_zero_of_lt enough)
      refine ⟨_, insert?_of_empty room rfl, ?_⟩
      by_cases same : firstIndex.nibble path.length = secondIndex.nibble path.length
      · have firstNext := Hash.leads_succ firstLeads room
        have secondNext := Hash.leads_succ secondLeads room
        rw [same] at firstNext
        obtain ⟨one, added, both⟩ := inductionHypothesis
          (by rw [List.length_append, List.length_singleton]; omega)
          (Nat.le_of_succ_le_succ enough) firstNext secondNext
        rw [List.length_append, List.length_singleton] at added both
        rw [same, insert?_of_other room withChild_same apart added both, withChild_withChild,
          fork_succ_of_eq same]
      · rw [insert?_of_empty room (withChild_of_ne (Ne.symm same)), fork_succ_of_ne same]

/-- At an inner node that stands, one call for each half octet that is left is enough,
and the recursion does what adding does. -/
theorem insert?_eq_add {node : TreeNode} (stands : Stands path node)
    (leads : path <+: index.nibbles) (isInner : ∃ depth branches, node = inner depth branches)
    (enough : 64 ≤ path.length + calls) (item : TreeItem) (depth : Nat) :
    insert? calls index item node = some (node.add index item depth) := by
  induction node generalizing path calls depth with
  | empty =>
      obtain ⟨_, _, impossible⟩ := isInner
      cases impossible
  | leaf other held =>
      obtain ⟨_, _, impossible⟩ := isInner
      cases impossible
  | inner level branches inductionHypothesis =>
      obtain ⟨⟨rfl, shallow, _⟩, children⟩ := stands_inner_iff.mp stands
      obtain ⟨fewer, rfl⟩ : ∃ fewer, calls = fewer + 1 :=
        Nat.exists_eq_add_one_of_ne_zero (by omega)
      have room : path.length < 64 := by omega
      have next := Hash.leads_succ leads room
      have size : (path ++ [index.nibble path.length]).length = path.length + 1 :=
        List.length_append
      have child := children (index.nibble path.length)
      rw [add_inner]
      cases found : branches (index.nibble path.length) with
      | empty =>
          rw [insert?_of_empty room found]
          rfl
      | leaf other held =>
          by_cases same : other = index
          · subst same
            rw [insert?_of_leaf room found, add, if_pos rfl]
          · rw [found] at child
            have otherLeads := child [] _ rfl
            rw [List.append_nil] at otherLeads
            have few : 64 - (path ++ [index.nibble path.length]).length ≤ fewer := by omega
            obtain ⟨one, added, both⟩ := insert?_fork held item
              (Nat.add_sub_of_le (Hash.length_le_of_leads next)) few same otherLeads next
            rw [size] at added both
            rw [insert?_of_other room found same added both, add, if_neg same]
      | inner below inside =>
          have deeper : insert? fewer index item (branches (index.nibble path.length)) =
              some ((branches (index.nibble path.length)).add index item (path.length + 1)) :=
            inductionHypothesis _ child next ⟨_, _, found⟩ (by omega) _
          rw [found] at deeper
          rw [insert?_of_inner room found, deeper, Option.map_some]

end Adding

end TreeNode

/-! ## Trees of additions -/

namespace HashTree

open TreeNode

/-- Adds an item by the recursion, if that gives a result. -/
def add? (calls : Nat) (tree : HashTree) (index : Hash 32) (item : TreeItem) :
    Option (HashTree × Option TreeItem) := do
  let (top, replaced) ← insert? calls index item tree.top
  return (⟨top, if replaced.isNone then tree.size + 1 else tree.size⟩, replaced)

/-- The tree that additions one after another make by the recursion. -/
def ofList? (calls : Nat) (items : List (Hash 32 × TreeItem)) : Option HashTree :=
  items.foldlM (fun tree (index, item) => (add? calls tree index item).map (·.1)) empty

/-- The top of a tree stands at the root, and it is an inner node. -/
theorem stands_top (additions : List (Hash 32 × TreeItem)) :
    Stands [] (ofList additions).top ∧
      ∃ depth branches, (ofList additions).top = inner depth branches := by
  induction additions using List.reverseRecOn with
  | nil =>
      exact ⟨stands_inner_iff.mpr
        ⟨⟨rfl, Nat.zero_le _, absurd rfl⟩, fun _ => stands_empty⟩, 0, _, rfl⟩
  | append_singleton additions addition inductionHypothesis =>
      obtain ⟨stands, depth, branches, isInner⟩ := inductionHypothesis
      obtain ⟨index, item⟩ := addition
      rw [ofList_append_singleton]
      refine ⟨(stands_add stands List.nil_prefix item).1, ?_⟩
      change ∃ depth branches, ((ofList additions).top.add index item 0).1 = inner depth branches
      rw [isInner]
      exact ⟨_, _, congrArg Prod.fst (add_inner depth)⟩

private theorem add?_ofList {calls : Nat} (enough : 64 ≤ calls)
    (additions : List (Hash 32 × TreeItem)) (index : Hash 32) (item : TreeItem) :
    add? calls (ofList additions) index item = some ((ofList additions).add index item) := by
  obtain ⟨stands, isInner⟩ := stands_top additions
  rw [add?, insert?_eq_add stands List.nil_prefix isInner (by simpa using enough) item 0]
  rfl

/-- Whatever is added to the empty tree, each path fits the node that it leads to. An
inner node is as deep as the path to it is long, at most 63, and there are two leaves
below it unless it is the root; the index of a leaf begins with the path. So the
recursion that adds leaves node by node always ends, with no more than 64 calls inside
one another and without asking for a half octet behind the last, and makes the same
tree, as it does for any further addition. -/
theorem paths_fit_of_additions (additions : List (Hash 32 × TreeItem)) :
    (∀ path node, (ofList additions).top.below? path = some node → node.Fits path) ∧
      ∀ calls ≥ 64, ofList? calls additions = some (ofList additions) ∧
        ∀ index item, add? calls (ofList additions) index item =
          some ((ofList additions).add index item) := by
  refine ⟨(stands_top additions).1, fun calls enough => ⟨?_, add?_ofList enough additions⟩⟩
  induction additions using List.reverseRecOn with
  | nil =>
      rfl
  | append_singleton additions addition inductionHypothesis =>
      obtain ⟨index, item⟩ := addition
      rw [ofList?, List.foldlM_append, ← ofList?, inductionHypothesis, ofList_append_singleton]
      simp only [Option.bind_eq_bind, Option.bind_some, List.foldlM_cons, List.foldlM_nil,
        add?_ofList enough, Option.map_some]
      rfl

/-- The leaves of two indexes that part at the last half octet lie below a node of
depth 63. -/
theorem paths_fit_of_additions_near :
    let additions := [(nearIndex 1, octetItem 1), (nearIndex 2, octetItem 2)]
    let path := (nearIndex 1).nibbles.take 63
    ∃ node, (ofList additions).top.below? path = some node ∧
      node.indexes = [nearIndex 1, nearIndex 2] ∧ node.Fits path ∧
      ofList? 64 additions = some (ofList additions) := by
  intro additions path
  have leaves : ((ofList additions).top.below? path).map indexes =
      some [nearIndex 1, nearIndex 2] := by decide +kernel
  obtain ⟨node, reached, two⟩ := Option.map_eq_some_iff.mp leaves
  obtain ⟨fits, again⟩ := paths_fit_of_additions additions
  exact ⟨node, reached, two, fits path node reached, (again 64 (Nat.le_refl _)).1⟩

end HashTree

end LedgerWire
