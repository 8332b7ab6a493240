import WitnessLedger.Entry.Basic
import WitnessLedger.Merkle.Tree

/-! # Blocks

A block seals a batch of accepted entries.  Its hash covers the height, the Merkle root over
the entries' content hashes and the hash of the block before it, so that a block commits to
all blocks before it. -/

namespace WitnessLedger

/-- A sealed batch of entries. -/
structure Block where
  height : Nat
  timestamp : Instant
  /-- The entries in the order in which they were accepted. -/
  entries : List Entry
  prevHash : Digest
  /-- The root over the content hashes of the entries. -/
  merkleRoot : Digest
  /-- One signature for each witness that accepted one of the entries. -/
  signatures : SortedMap Digest
  totalCost : Nat

namespace Block

/-- The text that the hash of a block covers. -/
def headerText (height : Nat) (merkleRoot prevHash : Digest) : String :=
  Text.Numeral.text height ++ ":" ++ merkleRoot.hex ++ ":" ++ prevHash.hex

/-- The hash of a block with the given header. -/
def headerHash (height : Nat) (merkleRoot prevHash : Digest) : Digest :=
  Digest.tagged Digest.blockTag (Text.bytes (headerText height merkleRoot prevHash))

/-- The hash of a block. -/
def hash (b : Block) : Digest := headerHash b.height b.merkleRoot b.prevHash

/-- The content hashes of the entries, which are the leaves of the block's tree. -/
def leaves (b : Block) : List Digest := b.entries.map (·.contentHash)

/-- The Merkle root over the entries that the block holds. -/
def recomputedRoot (b : Block) : Digest := (Merkle.Tree.build b.leaves).root

end Block

end WitnessLedger
