import WitnessLedger.Command.Simulation
import WitnessLedger.Command.Demo
import WitnessLedger.Config.Settings
import WitnessLedger.Document.Config
import WitnessLedger.Json.Printer

/-! # Reports as text

A report is a list of lines.  A table has a title, and rows whose keys are filled up to twenty
characters. -/

namespace WitnessLedger.Command

/-- The lines of a report. -/
abbrev Lines := List String

/-- A row of a table. -/
def row (key value : String) : String :=
  key ++ String.ofList (List.replicate (20 - key.length) ' ') ++ " " ++ value

/-- The line that separates the title of a part from its rows. -/
def separator : String := String.ofList (List.replicate 40 '-')

/-- A finding in a table. -/
def validity (ok : Bool) : String := if ok then "VALID" else "INVALID"

/-- A row with a number. -/
def countRow (key : String) (n : Nat) : String := row key (Text.Numeral.text n)

/-- The name of a fork rule in a table. -/
def forkRuleTitle : ForkRule → String
  | .earliestTimestamp => "EarliestTimestamp"
  | .lowestEntryId => "LowestEntryId"
  | .manual => "Manual"

/-- A configuration. -/
def configLines (c : Config) : Format → Lines
  | .json => [(Document.toJson c).wideText]
  | .plain => [(Document.toJson c).text]
  | .table =>
    [ "Ledger Configuration", "=====================",
      row "Nodes" (Text.joinText ", " c.consensusNodes),
      row "Threshold" c.consensusThreshold.text,
      countRow "Compost Capacity" c.compostCapacity,
      countRow "Significance" c.significanceThreshold,
      row "Relevance Scope" (Text.joinText ", " (SortedSet.members c.relevanceScope)),
      row "Fork Tie-Break" (forkRuleTitle c.forkRule), row "Log Level" c.logLevel.name]

/-- What the settings mean. -/
def settingLines : Format → Lines
  | .json =>
    [(Json.sortedObject (Config.settingMeanings.map fun (k, v) => (k, .string v))).wideText]
  | _ => Config.settingMeanings.map fun (k, v) => row k v

/-- The findings of a simulation. -/
def simulationLines (r : SimulationReport) : Format → Lines
  | .json => [r.document.wideText]
  | .plain => [r.document.text]
  | .table =>
    [ "Settlement Simulation", "======================", countRow "Requested" r.requested,
      countRow "Anchored" r.anchored, countRow "Double-Spends" r.doubleSpends,
      countRow "Verified" r.verified, separator, countRow "Blocks" r.blocks,
      countRow "Entries" r.entries, countRow "ATP Cost" r.totalCost,
      row "Chain" (validity r.chainValid), row "Merkle Roots" (validity r.merkleRootsValid),
      row "Conservation" (validity r.conserved), row "Latest Hash" r.latestHash.hex]

/-- The tour. -/
def demoLines (r : DemoReport) : Format → Lines
  | .json => [r.document.wideText]
  | .plain => r.steps.map fun s => s.step ++ ": " ++ s.outcome
  | .table =>
    ["ACT Ledger Demo", "================"] ++ r.steps.map (fun s => row s.step s.outcome)
      ++ [ "", "Chain", separator, row "Valid" (validity r.chain.valid),
        countRow "Blocks" r.chain.blocks, countRow "Entries" r.chain.entries,
        row "Latest Hash" r.chain.latestHash.hex, "", "Tiers", separator,
        countRow "Compost" r.tiers.compost, countRow "Leaf" r.tiers.leaf,
        countRow "Stem" r.tiers.stem, countRow "Root" r.tiers.root,
        countRow "Promotions" r.tiers.promotions, countRow "ATP Cost" r.tiers.totalCost, "",
        "Settlements", separator, countRow "Settled" r.settlement.settlements,
        countRow "Conservation" r.settlement.conservationProofs,
        countRow "ADP Proofs" r.settlement.adpProofs,
        countRow "Double-Spends" r.settlement.doubleSpendAlerts]

/-- The confirmation that a configuration is valid. -/
def confirmation (c : Config) : String :=
  "Configuration valid: " ++ Text.Numeral.text c.consensusNodes.length ++ " nodes, threshold "
    ++ c.consensusThreshold.text

/-- Lines as they are printed. -/
def printed (lines : Lines) : String := String.join (lines.map (· ++ "\n"))

end WitnessLedger.Command
