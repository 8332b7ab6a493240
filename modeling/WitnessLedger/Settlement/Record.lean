import WitnessLedger.Content.Basic
import WitnessLedger.Chain.Verification

/-! # Settlement records

What is kept about settlements, checks of balances, discharges and refused statements beside
the chain that anchors them. -/

namespace WitnessLedger

/-- A settlement whose entry is sealed. -/
structure SettlementRecord where
  settlementId : String
  statement : Statement
  entryId : String
  blockHeight : Option Nat
  merkleProof : Option Merkle.Proof
  conservationVerified : Bool
  /-- The check of balances that is attached to the settlement. -/
  conservationProofId : Option String
  timestamp : Instant
  deriving DecidableEq

/-- An anchored check that balances add up to the expected total. -/
structure ConservationProof where
  proofId : String
  entryId : String
  balances : SortedMap Decimal
  totalAtp : Decimal
  expectedTotal : Decimal
  /-- The distance between the two totals. -/
  drift : Decimal
  conserved : Bool
  timestamp : Instant

/-- An anchored discharge. -/
structure AdpProof where
  adpId : String
  entryId : String
  grantId : String
  discharged : Decimal
  remaining : Decimal
  evidenceDigest : String
  timestamp : Instant
  deriving DecidableEq

/-- A statement that was refused because it covers a settled transfer. -/
structure DoubleSpendAlert where
  transferId : String
  statementId : String
  alertEntryId : String
  timestamp : Instant
  deriving DecidableEq

/-- A report on a settlement. -/
structure SettlementVerification where
  settlementId : String
  verified : Bool
  /-- Present for a settlement that is not known. -/
  reason : Option String
  chainVerification : Option EntryVerification
  blockHeight : Option Nat
  conservationVerified : Bool
  deriving DecidableEq

/-- Counts of what is kept, and the report on the chain. -/
structure SettlementStats where
  settlements : Nat
  conservationProofs : Nat
  adpProofs : Nat
  doubleSpendAlerts : Nat
  chain : ChainProof
  deriving DecidableEq

end WitnessLedger
