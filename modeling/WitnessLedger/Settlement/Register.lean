import WitnessLedger.Settlement.Record
import WitnessLedger.Time.Clock
import WitnessLedger.Chain.Proposal
import WitnessLedger.Decimal.Arithmetic

/-! # The settlement register

The register turns statements, checks of balances and discharges into proposals, and keeps
records of them.

A statement that covers a settled transfer is refused, but the refusal leaves a trace: an alert
is proposed to the chain and recorded.  `anchor` therefore has three outcomes, and only the
plain error leaves everything as it was. -/

namespace WitnessLedger

/-- What is kept beside a chain. -/
structure Register where
  settlements : List SettlementRecord
  conservationProofs : List ConservationProof
  adpProofs : List AdpProof
  alerts : List DoubleSpendAlert
  /-- The ids of the statements that were anchored. -/
  anchored : List String

/-- The outcome of anchoring a statement that changes the chain. -/
inductive Anchoring where
  /-- The settlement was proposed. -/
  | proposed (entry : Entry)
  /-- The statement covers a settled transfer, and an alert was proposed. -/
  | doubleSpend (transfer : String) (alert : Entry)

namespace Register

/-- Nothing is kept. -/
def empty : Register := ⟨[], [], [], [], []⟩

/-- Drifts below this tolerance, a thousandth, count as none. -/
def tolerance : Decimal := ⟨false, 1, 3, by decide⟩

/-- The alert on a transfer that a statement covers. -/
def alertPayload (s : Statement) (transfer : String) : Payload :=
  .doubleSpendAlert { transferId := transfer, statementId := s.statementId
                      societyA := s.societyA, societyB := s.societyB }

/-- Proposes an alert and records it. -/
def raiseAlert (r : Register) (c : Chain) (now : Readings) (suffix : String) (s : Statement)
    (transfer : String) : Except LedgerError (Anchoring × Register × Chain) := do
  let content ← (Content.ofPayload (alertPayload s transfer)).mapError .validation
  let (e, c) ← c.propose now.entry suffix .doubleSpendAlert content .root
  let alert : DoubleSpendAlert :=
    { transferId := transfer, statementId := s.statementId, alertEntryId := e.id
      timestamp := now.record }
  return (.doubleSpend transfer e, { r with alerts := r.alerts ++ [alert] }, c)

/-- Proposes a settlement and marks its transfers as settled. -/
def proposeSettlement (r : Register) (c : Chain) (now : Instant) (suffix : String)
    (s : Statement) : Except LedgerError (Anchoring × Register × Chain) := do
  let content ← (Content.ofPayload (.bilateralSettlement s)).mapError .validation
  let (e, c) ← c.propose now suffix .bilateralSettlement content .root
  return (.proposed e, { r with anchored := r.anchored ++ [s.statementId] },
    s.transferIds.foldl Chain.recordSettlement c)

/-- Anchors a statement.  The first of its transfers that is settled leads to an alert; after
    that, a statement id that was anchored before is refused. -/
def anchor (r : Register) (c : Chain) (now : Readings) (suffix : String) (s : Statement) :
    Except LedgerError (Anchoring × Register × Chain) := do
  s.validate.mapError .validation
  match s.transferIds.find? c.isSettled with
  | some transfer => r.raiseAlert c now suffix s transfer
  | none =>
    if r.anchored.contains s.statementId then throw (.duplicateStatement s.statementId)
    r.proposeSettlement c now.entry suffix s

/-- The record of a settlement. -/
def settlement? (r : Register) (id : String) : Option SettlementRecord :=
  r.settlements.find? (·.settlementId == id)

/-- The record that a sealed entry with a statement leads to. -/
def recordOf (e : Entry) (s : Statement) (now : Instant) : SettlementRecord :=
  { settlementId := s.statementId, statement := s, entryId := e.id, blockHeight := e.blockHeight
    merkleProof := e.proof, conservationVerified := false, conservationProofId := none
    timestamp := now }

/-- Records the settlement of a sealed entry; there is no record before the entry is sealed.
    A second call gives the same record, and another entry with the same statement id is
    refused. -/
def finalizeSettlement (r : Register) (c : Chain) (now : Instant) (id : String) :
    Except LedgerError (Option SettlementRecord × Register) :=
  match r.settlements.find? (·.entryId == id) with
  | some record => .ok (some record, r)
  | none =>
    match c.entry? id with
    | none => .error (.notFound (.entry id))
    | some e =>
      match e.content.statement? with
      | none => .error (.validation (.notSettlement id e.kind))
      | some s =>
        if e.phase != .finalized then .ok (none, r)
        else if (r.settlement? s.statementId).isSome then
          .error (.duplicateStatement s.statementId)
        else
          let record := recordOf e s now
          .ok (some record, { r with settlements := r.settlements ++ [record] })

/-- The sum of balances, added up in the order of their societies. -/
def balanceTotal (balances : SortedMap Decimal) : Option Decimal :=
  balances.values.foldlM Decimal.add? .zero

/-- The distance of a total from the expected one. -/
def driftOf (total expected : Decimal) : Option Decimal :=
  (total.sub? expected).map Decimal.absolute

/-- Anchors a check of balances, whatever its outcome.  One suffix is for the proof and one for
    its entry. -/
def anchorConservation (r : Register) (c : Chain) (now : Readings)
    (proofSuffix entrySuffix : String) (balances : SortedMap Decimal) (expected : Decimal) :
    Except LedgerError (ConservationProof × Register × Chain) := do
  let some total := balanceTotal balances | throw (.validation .balanceOverflow)
  let some drift := driftOf total expected | throw (.validation .driftOverflow)
  let conserved := drift.lt tolerance
  let proofId := "cons:" ++ proofSuffix
  let content ← (Content.ofPayload (.conservationProof
    { proofId, totalAtp := total, expectedTotal := expected, drift, conserved
      societyCount := UInt64.ofNat balances.toList.length })).mapError .validation
  let (e, c) ← c.propose now.entry entrySuffix .conservationProof content .root
  let proof : ConservationProof :=
    { proofId, entryId := e.id, balances, totalAtp := total, expectedTotal := expected, drift
      conserved, timestamp := now.record }
  return (proof, { r with conservationProofs := r.conservationProofs ++ [proof] }, c)

/-- Anchors a discharge on the stem.  The amounts are recorded as they are given. -/
def anchorDischarge (r : Register) (c : Chain) (now : Readings) (adpSuffix entrySuffix : String)
    (grantId : String) (discharged remaining : Decimal) (evidenceDigest : String) :
    Except LedgerError (AdpProof × Register × Chain) := do
  let adpId := "adp:" ++ adpSuffix
  let content ← (Content.ofPayload (.adpDischarge
    { adpId, grantId, discharged, remaining, evidenceDigest })).mapError .validation
  let (e, c) ← c.propose now.entry entrySuffix .adpDischarge content .stem
  let proof : AdpProof :=
    { adpId, entryId := e.id, grantId, discharged, remaining, evidenceDigest
      timestamp := now.record }
  return (proof, { r with adpProofs := r.adpProofs ++ [proof] }, c)

/-- The report on a settlement. -/
def verifySettlement (r : Register) (c : Chain) (id : String) : SettlementVerification :=
  match r.settlement? id with
  | none =>
    { settlementId := id, verified := false, reason := some "settlement_not_found"
      chainVerification := none, blockHeight := none, conservationVerified := false }
  | some record =>
    let report := c.verifyEntry record.entryId
    { settlementId := id, verified := report.verified, reason := none, chainVerification := report
      blockHeight := record.blockHeight, conservationVerified := record.conservationVerified }

/-- Changes the first record with an id. -/
def updateFirst (id : String) (f : SettlementRecord → SettlementRecord) :
    List SettlementRecord → List SettlementRecord
  | [] => []
  | r :: rest => if r.settlementId = id then f r :: rest else r :: updateFirst id f rest

/-- Changes the record of a settlement. -/
def updateSettlement (r : Register) (id : String) (f : SettlementRecord → SettlementRecord) :
    Except LedgerError Register :=
  if (r.settlement? id).isSome then
    .ok { r with settlements := updateFirst id f r.settlements }
  else .error (.notFound (.settlement id))

/-- Notes on a settlement that the balances were checked. -/
def markConserved (r : Register) (id : String) : Except LedgerError Register :=
  r.updateSettlement id fun record => { record with conservationVerified := true }

/-- Attaches a check of balances to a settlement, and tells its outcome, which the settlement
    takes over. -/
def attachProof (r : Register) (id proofId : String) : Except LedgerError (Bool × Register) :=
  match r.conservationProofs.find? (·.proofId == proofId) with
  | none => .error (.notFound (.conservationProof proofId))
  | some proof => do
    let r ← r.updateSettlement id fun record =>
      { record with conservationProofId := some proofId, conservationVerified := proof.conserved }
    return (proof.conserved, r)

/-- Counts of what is kept, and the report on the chain. -/
def stats (r : Register) (c : Chain) : SettlementStats :=
  { settlements := r.settlements.length, conservationProofs := r.conservationProofs.length
    adpProofs := r.adpProofs.length, doubleSpendAlerts := r.alerts.length, chain := c.proof }

end Register

end WitnessLedger
