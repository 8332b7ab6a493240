import WitnessLedger.Config.LogLevel
import WitnessLedger.Chain.Panel
import WitnessLedger.Chain.Fork
import WitnessLedger.SortedMap

/-! # Configuration

What a ledger is set up with: the panel of witnesses, the size of the compost, what counts as
significant and relevant, and how forks are resolved. -/

namespace WitnessLedger

/-- What a ledger is set up with. -/
structure Config where
  consensusNodes : List String
  /-- The share of the nodes that has to accept an entry. -/
  consensusThreshold : Double
  compostCapacity : Nat
  /-- The cost above which an entry is significant. -/
  significanceThreshold : Nat
  /-- The societies and entities that make an entry relevant. -/
  relevanceScope : SortedSet
  forkRule : ForkRule
  logLevel : LogLevel

namespace Config

/-- The configuration where nothing is set. -/
def standard : Config :=
  { consensusNodes := ["node-alpha", "node-beta", "node-gamma", "node-delta", "node-epsilon"]
    consensusThreshold := Double.ratio 67 100, compostCapacity := 1000, significanceThreshold := 10
    relevanceScope := .empty, forkRule := .manual, logLevel := .info }

instance : Inhabited Config := ⟨standard⟩

/-- The configuration for development, with a lower threshold and more reports. -/
def development : Config :=
  { standard with consensusThreshold := Double.ratio 6 10, logLevel := .debug }

/-- The name of the setting for the nodes. -/
def nodesKey : String := "ACT_CONSENSUS_NODES"

/-- The first fault of a list of nodes: a blank one, or one that stands in it, or in `seen`,
    before. -/
def nodeFault? (seen : List String) : List String → Option ConfigError
  | [] => none
  | node :: rest =>
    if Text.isBlankText node then some (.invalidValue nodesKey node)
    else if node ∈ seen then some (.duplicateNode node)
    else nodeFault? (node :: seen) rest

/-- Refuses a configuration that no ledger can be set up with. -/
def validate (c : Config) : Except ConfigError Unit := do
  if c.consensusNodes.isEmpty then throw .noConsensusNodes
  match nodeFault? [] c.consensusNodes with
  | some fault => throw fault
  | none =>
    if !thresholdInRange c.consensusThreshold then throw (.invalidThreshold c.consensusThreshold)
    if c.compostCapacity = 0 then throw .zeroCapacity

end Config

end WitnessLedger
