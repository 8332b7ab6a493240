import WitnessLedger.Merkle.Proof

/-! # Merkle trees

The nodes of a tree are a list in the order of levels: the leaves first, filled up with copies
of the last one to a power of two, then each level of parents, and the root last.  A tree may
also come from outside with any nodes and any number of leaves; a query on such a tree can ask
for a node that is not there, and says which one. -/

namespace WitnessLedger.Merkle

/-- The root of a tree without leaves. -/
def emptyRoot : Digest := Digest.tagged Digest.merkleTag (Text.bytes "empty")

/-- The nodes of a tree in the order of levels, and the number of leaves before filling up. -/
structure Tree where
  nodes : List Digest
  leafCount : Nat
  deriving DecidableEq

/-- Why a query finds nothing. -/
inductive Miss where
  /-- There is no such leaf. -/
  | noLeaf
  /-- The query needs a node that the tree does not hold. -/
  | noNode (index : Nat)
  deriving DecidableEq

/-- The number of levels above the leaves. -/
def heightFor (leaves : Nat) : Nat := if leaves ≤ 1 then 0 else (leaves - 1).log2 + 1

/-- The number of leaves after filling up, the next power of two. -/
def widthFor (leaves : Nat) : Nat := Nat.pow 2 (heightFor leaves)

/-- The parents of a level. -/
def parents : List Digest → List Digest
  | left :: right :: rest => Digest.combine left right :: parents rest
  | _ => []

/-- A level and all levels above it, `height` of them. -/
def levels (height : Nat) (level : List Digest) : List Digest :=
  match height with
  | 0 => level
  | height + 1 => level ++ levels height (parents level)

/-- The leaves filled up with copies of the last one. -/
def filledUp (leaves : List Digest) : List Digest :=
  match leaves.getLast? with
  | none => []
  | some last => leaves ++ List.replicate (widthFor leaves.length - leaves.length) last

namespace Tree

/-- The tree over a list of leaves. -/
def build (leaves : List Digest) : Tree :=
  if leaves.isEmpty then ⟨[emptyRoot], 0⟩
  else ⟨levels (heightFor leaves.length) (filledUp leaves), leaves.length⟩

/-- The last node. -/
def root (t : Tree) : Digest := t.nodes.getLast?.getD emptyRoot

/-- A node by its place. -/
def node (t : Tree) (index : Nat) : Except Miss Digest :=
  match t.nodes[index]? with
  | some d => .ok d
  | none => .error (.noNode index)

/-- The place of the first leaf with a given digest.  All leaves have to be there. -/
def position (t : Tree) (leaf : Digest) : Except Miss Nat :=
  if t.nodes.length < t.leafCount then .error (.noNode t.nodes.length)
  else
    match (t.nodes.take t.leafCount).findIdx? (· == leaf) with
    | some index => .ok index
    | none => .error .noLeaf

/-- The path from the node at `index` of the level that begins at `start` and has `height`
    levels above it. -/
def pathFrom (t : Tree) (height start index : Nat) : Except Miss (List Step) :=
  match height with
  | 0 => .ok []
  | height + 1 => do
    let sibling ← t.node (start + if index % 2 = 0 then index + 1 else index - 1)
    let rest ← pathFrom t height (start + Nat.pow 2 (height + 1)) (index / 2)
    return ⟨sibling, if index % 2 = 0 then .right else .left⟩ :: rest

/-- The proof for the leaf at a place. -/
def proveIndex (t : Tree) (index : Nat) : Except Miss Proof :=
  if t.leafCount ≤ index then .error .noLeaf
  else do
    let path ← t.pathFrom (heightFor t.leafCount) 0 index
    return ⟨index, ← t.node index, path, t.root⟩

/-- The proof for the first leaf with a given digest. -/
def prove (t : Tree) (leaf : Digest) : Except Miss Proof := do t.proveIndex (← t.position leaf)

end Tree

end WitnessLedger.Merkle
