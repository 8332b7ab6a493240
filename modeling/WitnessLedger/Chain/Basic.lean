import WitnessLedger.Block
import WitnessLedger.Chain.Panel
import WitnessLedger.Chain.Fork

/-! # The chain

The state of one chain: the panel, every entry ever proposed, the entries that wait, the
entries that are accepted and not yet sealed, the blocks, and the transfers that are settled.
Every proposal links to the content of the proposal before it, and every block to the block
before it; both links start from one genesis digest. -/

namespace WitnessLedger

/-- The state of a chain. -/
structure Chain where
  panel : Panel
  forkRule : ForkRule
  /-- Every entry ever proposed, in the order of proposal. -/
  entries : List Entry
  /-- The ids of the entries that are neither sealed nor rejected, in the order of proposal. -/
  pending : List String
  /-- The ids of the accepted entries that are not sealed, in the order of acceptance. -/
  accepted : List String
  blocks : List Block
  /-- The transfers that are settled. -/
  settled : List String
  /-- The content hash of the last proposal. -/
  latestEntryHash : Digest

namespace Chain

/-- The digest that both links start from. -/
def genesis : Digest := Digest.ofText "act:genesis:web4"

/-- A chain without entries. -/
def new (panel : Panel) (forkRule : ForkRule) : Chain :=
  { panel, forkRule, entries := [], pending := [], accepted := [], blocks := [], settled := []
    latestEntryHash := genesis }

/-- The number of blocks, which is the height of the next one. -/
def height (c : Chain) : Nat := c.blocks.length

/-- The hash of the last block, or the genesis digest. -/
def latestBlockHash (c : Chain) : Digest :=
  match c.blocks.getLast? with
  | some b => b.hash
  | none => genesis

/-- The entry with an id. -/
def entry? (c : Chain) (id : String) : Option Entry := c.entries.find? (·.id == id)

/-- The block at a height. -/
def block? (c : Chain) (height : Nat) : Option Block :=
  c.blocks[height]?.filter (·.height == height)

/-- The entries that are neither sealed nor rejected. -/
def pendingEntries (c : Chain) : List Entry := c.pending.filterMap c.entry?

/-- Whether a transfer is settled. -/
def isSettled (c : Chain) (transfer : String) : Bool := c.settled.contains transfer

/-- Marks a transfer as settled. -/
def recordSettlement (c : Chain) (transfer : String) : Chain :=
  if c.isSettled transfer then c else { c with settled := c.settled ++ [transfer] }

/-- The sealed entries of a kind, and not before a moment, where these are given. -/
def query (c : Chain) (kind : Option EntryKind) (since : Option Instant) : List Entry :=
  (c.blocks.flatMap (·.entries)).filter fun e =>
    kind.all (· == e.kind) && since.all (·.le e.timestamp)

/-- The state in which an entry is changed and all others are not. -/
def update (c : Chain) (id : String) (f : Entry → Entry) : Chain :=
  { c with entries := c.entries.map fun e => if e.id = id then f e else e }

end Chain

end WitnessLedger
