import WitnessLedger.Config.Basic
import WitnessLedger.Double.Reader
import WitnessLedger.Text.Split

/-! # Settings

A configuration can be given as texts under fixed names.  A setting that is missing or does
not read is passed over for the standard value. -/

namespace WitnessLedger.Config

/-- The name of the setting for the threshold. -/
def thresholdKey : String := "ACT_CONSENSUS_THRESHOLD"

/-- The name of the setting for the size of the compost. -/
def capacityKey : String := "ACT_COMPOST_CAPACITY"

/-- The name of the setting for what counts as significant. -/
def significanceKey : String := "ACT_SIGNIFICANCE_THRESHOLD"

/-- The name of the setting for what counts as relevant. -/
def scopeKey : String := "ACT_RELEVANCE_SCOPE"

/-- The name of the setting for how forks are resolved. -/
def forkKey : String := "ACT_FORK_TIE_BREAK"

/-- The name of the setting for how much is reported. -/
def logKey : String := "ACT_LOG_LEVEL"

/-- The parts of a text between commas, without the blanks around them and without the parts
    that are empty then. -/
def splitList (s : String) : List String :=
  ((Text.splitText ',' s).map Text.trimmed).filter (!·.isEmpty)

/-- Reads a number of 64 bits with blanks around it. -/
def readWord? (s : String) : Option Nat :=
  Text.Numeral.readUnsigned? UInt64.size (Text.trim s.toList)

/-- The nodes of a setting, if it names any. -/
def readNodes? (s : String) : Option (List String) :=
  match splitList s with
  | [] => none
  | nodes => some nodes

/-- The configuration that settings give. -/
def ofSettings (setting? : String → Option String) : Config :=
  { consensusNodes := ((setting? nodesKey).bind readNodes?).getD standard.consensusNodes
    consensusThreshold := ((setting? thresholdKey).bind fun s =>
      Double.read? (Text.trimmed s)).getD standard.consensusThreshold
    compostCapacity := ((setting? capacityKey).bind readWord?).getD standard.compostCapacity
    significanceThreshold :=
      ((setting? significanceKey).bind readWord?).getD standard.significanceThreshold
    relevanceScope := match setting? scopeKey with
      | some s => SortedSet.ofMembers (splitList s)
      | none => standard.relevanceScope
    forkRule := ((setting? forkKey).bind ForkRule.ofSetting?).getD standard.forkRule
    logLevel := ((setting? logKey).bind LogLevel.ofSetting?).getD standard.logLevel }

/-- What the settings mean, in the order in which they are listed. -/
def settingMeanings : List (String × String) :=
  [ (nodesKey, "comma separated consensus node ids"),
    (thresholdKey, "accept ratio over all nodes, in (0, 1]"),
    (capacityKey, "compost ring buffer size"),
    (significanceKey, "ATP cost above which an entry is significant"),
    (scopeKey, "comma separated societies/entities in scope"),
    (forkKey, "earliest_timestamp, lowest_entry_id or manual"),
    (logKey, "error, warn, info, debug or trace")]

end WitnessLedger.Config
