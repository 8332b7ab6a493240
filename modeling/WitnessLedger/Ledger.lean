import WitnessLedger.Config.Basic
import WitnessLedger.Chain.Voting
import WitnessLedger.Chain.Sealing
import WitnessLedger.Tiers.Basic
import WitnessLedger.Settlement.Register

/-! # The ledger

A chain, the tiers below it and the settlement register beside it.  Each operation gives its
result and the ledger after it; one that fails gives no ledger, so that nothing has changed. -/

namespace WitnessLedger

/-- A chain with its tiers and its settlement register. -/
structure Ledger where
  chain : Chain
  tiers : Tiers
  register : Register

namespace Ledger

/-- The ledger that a valid configuration sets up. -/
def ofConfig (c : Config) : Except ConfigError Ledger := do
  c.validate
  let panel ← Panel.of c.consensusNodes c.consensusThreshold
  return { chain := .new panel c.forkRule
           tiers := .new c.compostCapacity c.significanceThreshold c.relevanceScope
           register := .empty }

/-- Proposes content for a level. -/
def propose (l : Ledger) (now : Instant) (suffix : String) (kind : EntryKind) (content : Content)
    (level : Level) : Except LedgerError (Entry × Ledger) := do
  let (e, chain) ← l.chain.propose now suffix kind content level
  return (e, { l with chain })

/-- Records a vote. -/
def submitVote (l : Ledger) (now : Instant) (entry witness : String) (accept : Bool)
    (reason : Option String) : Except LedgerError (Vote × Ledger) := do
  let (vote, chain) ← l.chain.submitVote now entry witness accept reason
  return (vote, { l with chain })

/-- Records a vote and accepts the entry if it then has a quorum. -/
def voteAndFinalize (l : Ledger) (now : Instant) (entry witness : String) (accept : Bool) :
    Except LedgerError (Bool × Ledger) := do
  let (accepted, chain) ← l.chain.voteAndFinalize now entry witness accept
  return (accepted, { l with chain })

/-- Accepts an entry if it has a quorum. -/
def finalize (l : Ledger) (entry : String) : Except LedgerError (Bool × Ledger) := do
  let (accepted, chain) ← l.chain.finalize entry
  return (accepted, { l with chain })

/-- Rejects an entry that cannot reach a quorum. -/
def reject (l : Ledger) (entry : String) : Except LedgerError Ledger := do
  return { l with chain := ← l.chain.reject entry }

/-- Seals the accepted entries, if there are any. -/
def sealBlock (l : Ledger) (now : Instant) : Option Block × Ledger :=
  let (block, chain) := l.chain.sealBlock now
  (block, { l with chain })

/-- Marks a transfer as settled. -/
def recordSettlement (l : Ledger) (transfer : String) : Ledger :=
  { l with chain := l.chain.recordSettlement transfer }

/-- Takes content into the tiers. -/
def ingest (l : Ledger) (now : Readings) (suffix : String) (kind : EntryKind) (content : Content) :
    Except LedgerError (Entry × Ledger) := do
  let (e, tiers) ← l.tiers.ingest now suffix kind content
  return (e, { l with tiers })

/-- Proposes an entry of the stem to the chain. -/
def promoteToRoot (l : Ledger) (now : Readings) (suffix entry : String) :
    Except LedgerError (Option Entry × Ledger) := do
  let (root, tiers, chain) ← l.tiers.promoteToRoot l.chain now suffix entry
  return (root, { l with tiers, chain })

/-- Forgets which kinds and subtypes have been seen. -/
def resetNovelty (l : Ledger) : Ledger := { l with tiers := l.tiers.resetNovelty }

/-- Anchors a statement. -/
def anchor (l : Ledger) (now : Readings) (suffix : String) (s : Statement) :
    Except LedgerError (Anchoring × Ledger) := do
  let (outcome, register, chain) ← l.register.anchor l.chain now suffix s
  return (outcome, { l with register, chain })

/-- Records the settlement of a sealed entry. -/
def finalizeSettlement (l : Ledger) (now : Instant) (entry : String) :
    Except LedgerError (Option SettlementRecord × Ledger) := do
  let (record, register) ← l.register.finalizeSettlement l.chain now entry
  return (record, { l with register })

/-- Anchors a check of balances. -/
def anchorConservation (l : Ledger) (now : Readings) (proofSuffix entrySuffix : String)
    (balances : SortedMap Decimal) (expected : Decimal) :
    Except LedgerError (ConservationProof × Ledger) := do
  let (proof, register, chain) ←
    l.register.anchorConservation l.chain now proofSuffix entrySuffix balances expected
  return (proof, { l with register, chain })

/-- Anchors a discharge. -/
def anchorDischarge (l : Ledger) (now : Readings) (adpSuffix entrySuffix grantId : String)
    (discharged remaining : Decimal) (evidenceDigest : String) :
    Except LedgerError (AdpProof × Ledger) := do
  let (proof, register, chain) ← l.register.anchorDischarge l.chain now adpSuffix entrySuffix
    grantId discharged remaining evidenceDigest
  return (proof, { l with register, chain })

/-- Notes on a settlement that the balances were checked. -/
def markConserved (l : Ledger) (settlement : String) : Except LedgerError Ledger := do
  return { l with register := ← l.register.markConserved settlement }

/-- Attaches a check of balances to a settlement. -/
def attachProof (l : Ledger) (settlement proofId : String) :
    Except LedgerError (Bool × Ledger) := do
  let (conserved, register) ← l.register.attachProof settlement proofId
  return (conserved, { l with register })

/-- The report on an entry. -/
def verifyEntry (l : Ledger) (entry : String) : EntryVerification := l.chain.verifyEntry entry

/-- The report on a settlement. -/
def verifySettlement (l : Ledger) (settlement : String) : SettlementVerification :=
  l.register.verifySettlement l.chain settlement

/-- Counts and costs of all levels. -/
def tierStats (l : Ledger) : TierStats := l.tiers.stats l.chain

/-- Counts of what the register keeps, and the report on the chain. -/
def settlementStats (l : Ledger) : SettlementStats := l.register.stats l.chain

end Ledger

end WitnessLedger
