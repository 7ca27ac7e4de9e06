import LedgerWire.Digest.HashPrefix

namespace LedgerWire

/-- What a tree holds under an index: octets, and the use under which they are
hashed. -/
structure TreeItem where
  use : HashPrefix
  bytes : Bytes
  deriving DecidableEq, Repr

/-- A node of a tree. An inner node routes an index by the index's half octet at
the node's depth. -/
inductive TreeNode
  | empty
  | leaf (index : Hash 32) (item : TreeItem)
  | inner (depth : Nat) (branches : Fin 16 → TreeNode)

namespace TreeNode

instance : Inhabited TreeNode := ⟨empty⟩

def isEmpty : TreeNode → Bool
  | empty => true
  | _ => false

/-! ## Adding -/

/-- An inner node with one branch. -/
def single (depth : Nat) (slot : Fin 16) (child : TreeNode) : TreeNode :=
  inner depth fun other => if other = slot then child else empty

/-- The node for two leaves at a depth. Inner nodes go on as long as the indexes
agree, for which there are at most `levels` half octets. -/
def fork (levels depth : Nat) (firstIndex : Hash 32) (first : TreeItem)
    (secondIndex : Hash 32) (second : TreeItem) : TreeNode :=
  match levels with
  | 0 => leaf secondIndex second
  | levels + 1 =>
      let slot := secondIndex.nibble depth
      if firstIndex.nibble depth = slot then
        single depth slot (fork levels (depth + 1) firstIndex first secondIndex second)
      else
        inner depth fun other =>
          if other = slot then leaf secondIndex second
          else if other = firstIndex.nibble depth then leaf firstIndex first
          else empty

/-- Puts an item below a node at a depth. Gives the item that was under the same
index as well. -/
def add (index : Hash 32) (item : TreeItem) (depth : Nat) :
    TreeNode → TreeNode × Option TreeItem
  | empty => (leaf index item, none)
  | leaf other held =>
      if other = index then
        (leaf index item, some held)
      else
        (fork (64 - depth) depth other held index item, none)
  | inner level branches =>
      let slot := index.nibble level
      let (child, replaced) := add index item (level + 1) (branches slot)
      (inner level fun other => if other = slot then child else branches other, replaced)

/-! ## Hashing -/

variable (hash : HashFunction)

/-- The octets that are hashed for a leaf. -/
def leafBytes (index : Hash 32) (item : TreeItem) : Bytes :=
  item.use.bytes ++ item.bytes ++ index.bytes

/-- The octets that are hashed for an inner node. -/
def innerBytes (children : Fin 16 → Hash 32) : Bytes :=
  HashPrefix.innerNode.bytes ++ (List.finRange 16).flatMap fun slot => (children slot).bytes

/-- The hash of a node, zero if there is no leaf below. -/
def root : TreeNode → Hash 32
  | empty => Hash.zero 32
  | leaf index item => hash (leafBytes index item)
  | inner _ branches =>
      if (List.finRange 16).all fun slot => (branches slot).isEmpty then
        Hash.zero 32
      else
        hash (innerBytes fun slot => root (branches slot))

end TreeNode

/-- A map from indexes to items, of which the hash of the root depends on the
contents alone. -/
structure HashTree where
  top : TreeNode
  size : Nat

namespace HashTree

def empty : HashTree := ⟨.inner 0 fun _ => .empty, 0⟩

instance : Inhabited HashTree := ⟨empty⟩

def isEmpty (tree : HashTree) : Bool := tree.size == 0

/-- Puts an item under an index. Gives the item that was there before. -/
def add (tree : HashTree) (index : Hash 32) (item : TreeItem) : HashTree × Option TreeItem :=
  let (top, replaced) := tree.top.add index item 0
  (⟨top, if replaced.isNone then tree.size + 1 else tree.size⟩, replaced)

/-- The tree of a list of items; of two under one index the later counts. -/
def ofList (items : List (Hash 32 × TreeItem)) : HashTree :=
  items.foldl (fun tree (index, item) => (tree.add index item).1) empty

def root (hash : HashFunction) (tree : HashTree) : Hash 32 := tree.top.root hash

end HashTree

end LedgerWire
