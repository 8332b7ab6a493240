import WitnessLedger.Chain.Basic
import WitnessLedger.Number.Total

/-! # Sealing

All accepted entries go into the next block, in the order in which they were accepted.  Each
gets its proof and the height of the block; the block keeps the first signature of every
witness that accepted one of them. -/

namespace WitnessLedger.Chain

/-- The accepted entries, in the order of acceptance. -/
def sealable (c : Chain) : List Entry :=
  (c.accepted.filterMap c.entry?).filter (·.phase == .accepted)

/-- An entry sealed at a place of a block. -/
def sealEntry (tree : Merkle.Tree) (height index : Nat) (e : Entry) : Entry :=
  { e with proof := (tree.proveIndex index).toOption, blockHeight := some height }.advanced
    .finalized

/-- The entries sealed as a block of a height. -/
def sealEntries (height : Nat) (members : List Entry) : List Entry :=
  let tree := Merkle.Tree.build (members.map (·.contentHash))
  members.mapIdx fun index e => sealEntry tree height index e

/-- The first accepting signature of every witness. -/
def firstSignatures (members : List Entry) : SortedMap Digest :=
  (members.flatMap (·.acceptSignatures)).foldl (fun m p => m.insertNew p.1 p.2) .empty

/-- The block that seals entries. -/
def blockOf (c : Chain) (now : Instant) (members : List Entry) : Block :=
  { height := c.height, timestamp := now, entries := sealEntries c.height members
    prevHash := c.latestBlockHash
    merkleRoot := (Merkle.Tree.build (members.map (·.contentHash))).root
    signatures := firstSignatures members
    totalCost := Number.total (·.cost) members }

/-- Puts an entry in the place of the one that has its id. -/
def store (c : Chain) (e : Entry) : Chain := c.update e.id fun _ => e

/-- Seals the accepted entries, if there are any. -/
def sealBlock (c : Chain) (now : Instant) : Option Block × Chain :=
  match c.sealable with
  | [] => (none, { c with accepted := [] })
  | members =>
    let block := c.blockOf now members
    let stored := block.entries.foldl store c
    (some block,
      { stored with accepted := [], blocks := c.blocks ++ [block]
                    pending := c.pending.filter fun id => !(members.any (·.id == id)) })

end WitnessLedger.Chain
