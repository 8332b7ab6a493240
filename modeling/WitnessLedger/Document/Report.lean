import WitnessLedger.Document.Entry
import WitnessLedger.Settlement.Record
import WitnessLedger.Tiers.Basic

/-! # Documents of records and reports

What the register and the tiers keep, and the reports on entries, settlements and chains. -/

namespace WitnessLedger

open Document

instance : Document VerificationFailure where
  toJson f := .string f.name
  ofJson? v := v.name?.bind VerificationFailure.ofName?

/-- Reads a report on an entry. -/
def EntryVerification.ofJson? (v : Json) : Option EntryVerification := do
  let f ← Fields.of? ["entry_id", "verified", "reason", "state", "block_height", "merkle_valid",
    "content_hash_valid", "witnesses", "required_witnesses", "content_hash"] v
  return { entryId := ← f.get "entry_id", verified := ← f.get "verified"
           reason := ← f.optional "reason", state := ← f.optional "state"
           blockHeight := ← f.optional "block_height", merkleValid := ← f.get "merkle_valid"
           contentHashValid := ← f.get "content_hash_valid", witnesses := ← f.get "witnesses"
           requiredWitnesses := ← f.get "required_witnesses"
           contentHash := ← f.optional "content_hash" }

instance : Document EntryVerification where
  toJson r := .object [ ("entry_id", toJson r.entryId), ("verified", toJson r.verified),
    ("reason", toJson r.reason), ("state", toJson r.state), ("block_height", toJson r.blockHeight),
    ("merkle_valid", toJson r.merkleValid), ("content_hash_valid", toJson r.contentHashValid),
    ("witnesses", toJson r.witnesses), ("required_witnesses", toJson r.requiredWitnesses),
    ("content_hash", toJson r.contentHash)]
  ofJson? := EntryVerification.ofJson?

/-- Reads a report on a chain. -/
def ChainProof.ofJson? (v : Json) : Option ChainProof := do
  let f ← Fields.of? ["valid", "blocks", "entries", "latest_hash", "total_atp_cost", "broken_at",
    "merkle_roots_valid"] v
  return { valid := ← f.get "valid", blocks := ← f.get "blocks", entries := ← f.get "entries"
           latestHash := ← f.get "latest_hash", totalCost := ← f.get "total_atp_cost"
           brokenAt := ← f.optional "broken_at"
           merkleRootsValid := ← f.get "merkle_roots_valid" }

instance : Document ChainProof where
  toJson p := .object [ ("valid", toJson p.valid), ("blocks", toJson p.blocks),
    ("entries", toJson p.entries), ("latest_hash", toJson p.latestHash),
    ("total_atp_cost", toJson p.totalCost), ("broken_at", toJson p.brokenAt),
    ("merkle_roots_valid", toJson p.merkleRootsValid)]
  ofJson? := ChainProof.ofJson?

/-- Reads the factors of a score. -/
def Score.ofJson? (v : Json) : Option Score := do
  let f ← Fields.of? ["significant", "novel", "anomalous", "relevant", "consequential"] v
  return { significant := ← f.get "significant", novel := ← f.get "novel"
           anomalous := ← f.get "anomalous", relevant := ← f.get "relevant"
           consequential := ← f.get "consequential" }

instance : Document Score where
  toJson s := .object [ ("significant", toJson s.significant), ("novel", toJson s.novel),
    ("anomalous", toJson s.anomalous), ("relevant", toJson s.relevant),
    ("consequential", toJson s.consequential)]
  ofJson? := Score.ofJson?

/-- Reads a step between levels. -/
def Promotion.ofJson? (v : Json) : Option Promotion := do
  let f ← Fields.of? ["entry_id", "root_entry_id", "from", "to", "snarc_total", "timestamp"] v
  return { entryId := ← f.get "entry_id", rootEntryId := ← f.optional "root_entry_id"
           source := ← f.get "from", target := ← f.get "to", total := ← f.optional "snarc_total"
           timestamp := ← f.get "timestamp" }

instance : Document Promotion where
  toJson p := .object [ ("entry_id", toJson p.entryId), ("root_entry_id", toJson p.rootEntryId),
    ("from", toJson p.source), ("to", toJson p.target), ("snarc_total", toJson p.total),
    ("timestamp", toJson p.timestamp)]
  ofJson? := Promotion.ofJson?

/-- Reads counts and costs of levels. -/
def TierStats.ofJson? (v : Json) : Option TierStats := do
  let f ← Fields.of? ["compost", "leaf", "stem", "root", "promotions", "total_atp_cost"] v
  return { compost := ← f.get "compost", leaf := ← f.get "leaf", stem := ← f.get "stem"
           root := ← f.get "root", promotions := ← f.get "promotions"
           totalCost := ← f.get "total_atp_cost" }

instance : Document TierStats where
  toJson s := .object [ ("compost", toJson s.compost), ("leaf", toJson s.leaf),
    ("stem", toJson s.stem), ("root", toJson s.root), ("promotions", toJson s.promotions),
    ("total_atp_cost", toJson s.totalCost)]
  ofJson? := TierStats.ofJson?

/-- Reads the record of a settlement. -/
def SettlementRecord.ofJson? (v : Json) : Option SettlementRecord := do
  let f ← Fields.of? ["settlement_id", "statement", "entry_id", "block_height", "merkle_proof",
    "conservation_verified", "conservation_proof_id", "timestamp"] v
  return { settlementId := ← f.get "settlement_id", statement := ← f.get "statement"
           entryId := ← f.get "entry_id", blockHeight := ← f.optional "block_height"
           merkleProof := ← f.optional "merkle_proof"
           conservationVerified := ← f.get "conservation_verified"
           conservationProofId := ← f.optional "conservation_proof_id"
           timestamp := ← f.get "timestamp" }

instance : Document SettlementRecord where
  toJson r := .object [ ("settlement_id", toJson r.settlementId),
    ("statement", toJson r.statement), ("entry_id", toJson r.entryId),
    ("block_height", toJson r.blockHeight), ("merkle_proof", toJson r.merkleProof),
    ("conservation_verified", toJson r.conservationVerified),
    ("conservation_proof_id", toJson r.conservationProofId), ("timestamp", toJson r.timestamp)]
  ofJson? := SettlementRecord.ofJson?

/-- Reads the record of a check of balances. -/
def ConservationProof.ofJson? (v : Json) : Option ConservationProof := do
  let f ← Fields.of? ["proof_id", "entry_id", "balances", "total_atp", "expected_total", "drift",
    "conserved", "timestamp"] v
  return { proofId := ← f.get "proof_id", entryId := ← f.get "entry_id"
           balances := ← f.get "balances", totalAtp := ← f.get "total_atp"
           expectedTotal := ← f.get "expected_total", drift := ← f.get "drift"
           conserved := ← f.get "conserved", timestamp := ← f.get "timestamp" }

instance : Document ConservationProof where
  toJson p := .object [ ("proof_id", toJson p.proofId), ("entry_id", toJson p.entryId),
    ("balances", toJson p.balances), ("total_atp", toJson p.totalAtp),
    ("expected_total", toJson p.expectedTotal), ("drift", toJson p.drift),
    ("conserved", toJson p.conserved), ("timestamp", toJson p.timestamp)]
  ofJson? := ConservationProof.ofJson?

/-- Reads the record of a discharge. -/
def AdpProof.ofJson? (v : Json) : Option AdpProof := do
  let f ← Fields.of? ["adp_id", "entry_id", "grant_id", "discharged", "remaining",
    "evidence_digest", "timestamp"] v
  return { adpId := ← f.get "adp_id", entryId := ← f.get "entry_id", grantId := ← f.get "grant_id"
           discharged := ← f.get "discharged", remaining := ← f.get "remaining"
           evidenceDigest := ← f.get "evidence_digest", timestamp := ← f.get "timestamp" }

instance : Document AdpProof where
  toJson p := .object [ ("adp_id", toJson p.adpId), ("entry_id", toJson p.entryId),
    ("grant_id", toJson p.grantId), ("discharged", toJson p.discharged),
    ("remaining", toJson p.remaining), ("evidence_digest", toJson p.evidenceDigest),
    ("timestamp", toJson p.timestamp)]
  ofJson? := AdpProof.ofJson?

/-- Reads the record of a refused statement. -/
def DoubleSpendAlert.ofJson? (v : Json) : Option DoubleSpendAlert := do
  let f ← Fields.of? ["transfer_id", "statement_id", "alert_entry_id", "timestamp"] v
  return { transferId := ← f.get "transfer_id", statementId := ← f.get "statement_id"
           alertEntryId := ← f.get "alert_entry_id", timestamp := ← f.get "timestamp" }

instance : Document DoubleSpendAlert where
  toJson a := .object [ ("transfer_id", toJson a.transferId),
    ("statement_id", toJson a.statementId), ("alert_entry_id", toJson a.alertEntryId),
    ("timestamp", toJson a.timestamp)]
  ofJson? := DoubleSpendAlert.ofJson?

/-- Reads a report on a settlement. -/
def SettlementVerification.ofJson? (v : Json) : Option SettlementVerification := do
  let f ← Fields.of? ["settlement_id", "verified", "reason", "chain_verification", "block_height",
    "conservation_verified"] v
  return { settlementId := ← f.get "settlement_id", verified := ← f.get "verified"
           reason := ← f.optional "reason"
           chainVerification := ← f.optional "chain_verification"
           blockHeight := ← f.optional "block_height"
           conservationVerified := ← f.get "conservation_verified" }

instance : Document SettlementVerification where
  toJson r := .object [ ("settlement_id", toJson r.settlementId), ("verified", toJson r.verified),
    ("reason", toJson r.reason), ("chain_verification", toJson r.chainVerification),
    ("block_height", toJson r.blockHeight),
    ("conservation_verified", toJson r.conservationVerified)]
  ofJson? := SettlementVerification.ofJson?

/-- Reads counts of what a register keeps. -/
def SettlementStats.ofJson? (v : Json) : Option SettlementStats := do
  let f ← Fields.of? ["settlements", "conservation_proofs", "adp_proofs", "double_spend_alerts",
    "chain"] v
  return { settlements := ← f.get "settlements"
           conservationProofs := ← f.get "conservation_proofs", adpProofs := ← f.get "adp_proofs"
           doubleSpendAlerts := ← f.get "double_spend_alerts", chain := ← f.get "chain" }

instance : Document SettlementStats where
  toJson s := .object [ ("settlements", toJson s.settlements),
    ("conservation_proofs", toJson s.conservationProofs), ("adp_proofs", toJson s.adpProofs),
    ("double_spend_alerts", toJson s.doubleSpendAlerts), ("chain", toJson s.chain)]
  ofJson? := SettlementStats.ofJson?

end WitnessLedger
