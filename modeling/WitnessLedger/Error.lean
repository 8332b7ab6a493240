import WitnessLedger.Entry.Kind
import WitnessLedger.Entry.Phase
import WitnessLedger.Double.Printer
import WitnessLedger.Text.Quoted
import WitnessLedger.Text.Numeral

/-! # Errors of the ledger

Each error names its cause; the wording is in one function for each type.  A threshold that is
not met yet is no error. -/

namespace WitnessLedger

/-- Why content or arguments are refused. -/
inductive Invalid where
  | blank (field : String)
  | sameSociety (society : String)
  | blankTransfer (position : Nat)
  | negativeDrift
  | anomalyOutOfRange (score : Double)
  | kindMismatch (content kind : EntryKind)
  | noCandidates
  | balanceOverflow
  | driftOverflow
  | notSettlement (entry : String) (kind : EntryKind)
  | stated (text : String)
  deriving DecidableEq

/-- What was not found. -/
inductive Missing where
  | entry (id : String)
  | settlement (id : String)
  | conservationProof (id : String)
  | stated (text : String)
  deriving DecidableEq

/-- Why an operation does not suit the state that it meets. -/
inductive Unfit where
  | closedToVotes (entry : String) (phase : Phase)
  | rejected (entry : String)
  | notOpen (entry : String) (phase : Phase)
  | reachable (entry : String)
  | stated (text : String)
  deriving DecidableEq

/-- How the chain of blocks is broken. -/
inductive Breach where
  | brokenAt (height : Nat)
  | broken
  | wrongRoot
  | stated (text : String)
  deriving DecidableEq

/-- Why an operation of the ledger fails. -/
inductive LedgerError where
  | notFound (what : Missing)
  | unauthorized (witness : String)
  | duplicateVote (entry witness : String)
  | doubleSpend (transfer alert : String)
  | forkTie (candidates : List String)
  | invalidState (why : Unfit)
  | duplicateStatement (id : String)
  | integrityViolation (how : Breach)
  | validation (why : Invalid)
  deriving DecidableEq

/-- Why a configuration is refused. -/
inductive ConfigError where
  | noConsensusNodes
  | duplicateNode (node : String)
  | invalidThreshold (threshold : Double)
  | zeroCapacity
  | invalidValue (key value : String)
  deriving DecidableEq

/-- What a message says about refused content. -/
def Invalid.message : Invalid → String
  | blank field => field ++ " must not be empty"
  | sameSociety society =>
    "bilateral statement needs two distinct societies, got " ++ society ++ " twice"
  | blankTransfer position =>
    "transfer id at position " ++ Text.Numeral.text position ++ " is empty"
  | negativeDrift => "drift must be non-negative"
  | anomalyOutOfRange score => "anomaly score must be in [0, 1], got " ++ score.text
  | kindMismatch content kind =>
    "content is " ++ content.name ++ " but entry type is " ++ kind.name
  | noCandidates => "no fork candidates to resolve"
  | balanceOverflow => "balance total overflows"
  | driftOverflow => "conservation drift overflows"
  | notSettlement entry kind => "entry " ++ entry ++ " is " ++ kind.name ++ ", not a settlement"
  | stated text => text

/-- What a message says about something that was not found. -/
def Missing.message : Missing → String
  | entry id => "entry " ++ id
  | settlement id => "settlement " ++ id
  | conservationProof id => "conservation proof " ++ id
  | stated text => text

/-- What a message says about an operation that does not suit the state. -/
def Unfit.message : Unfit → String
  | closedToVotes entry phase =>
    "entry " ++ entry ++ " is " ++ phase.name ++ " and takes no more votes"
  | rejected entry => "entry " ++ entry ++ " was rejected"
  | notOpen entry phase => "entry " ++ entry ++ " is " ++ phase.name ++ " and cannot be rejected"
  | reachable entry => "entry " ++ entry ++ " can still reach consensus"
  | stated text => text

/-- What a message says about a broken chain. -/
def Breach.message : Breach → String
  | brokenAt height => "block hash chain broken at height " ++ Text.Numeral.text height
  | broken => "block hash chain is broken"
  | wrongRoot => "block merkle root does not match its entries"
  | stated text => text

namespace LedgerError

/-- The text of an error. -/
def message : LedgerError → String
  | notFound what => "Not found: " ++ what.message
  | unauthorized witness => "Witness " ++ witness ++ " is not a consensus node"
  | duplicateVote entry witness =>
    "Duplicate vote: witness " ++ witness ++ " already voted on " ++ entry
  | doubleSpend transfer alert =>
    "Double-spend detected: transfer " ++ transfer ++ " already settled (alert " ++ alert ++ ")"
  | forkTie candidates => "Fork tie between candidates: " ++ Text.Quoted.texts candidates
  | invalidState why => "Invalid state: " ++ why.message
  | duplicateStatement id => "Statement " ++ id ++ " is already anchored"
  | integrityViolation how => "Integrity violation: " ++ how.message
  | validation why => "Validation error: " ++ why.message

/-- Whether an operation met something that is there already or that others dispute. -/
def isConflict : LedgerError → Bool
  | duplicateVote _ _ | doubleSpend _ _ | duplicateStatement _ | forkTie _ => true
  | _ => false

/-- Whether the chain itself is damaged. -/
def isIntegrity : LedgerError → Bool
  | integrityViolation _ => true
  | _ => false

/-- Whether something was not found. -/
def isNotFound : LedgerError → Bool
  | notFound _ => true
  | _ => false

end LedgerError

/-- The text of an error of a configuration. -/
def ConfigError.message : ConfigError → String
  | noConsensusNodes => "At least one consensus node is required"
  | duplicateNode node => "Duplicate consensus node: " ++ node
  | invalidThreshold threshold => "Consensus threshold must be in (0, 1], got " ++ threshold.text
  | zeroCapacity => "Compost capacity must be greater than zero"
  | invalidValue key value => "Invalid value for " ++ key ++ ": " ++ value

end WitnessLedger
