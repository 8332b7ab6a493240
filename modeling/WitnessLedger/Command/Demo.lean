import WitnessLedger.Command.Quorum
import WitnessLedger.Document.Report

/-! # Guided tour

A walk through the ledger on one example of each thing it does: a settlement and its
verification, a refused replay, two checks of balances, a discharge, and entries on their way
through the tiers. -/

namespace WitnessLedger.Command

/-- A step of the tour and how it went. -/
structure DemoStep where
  step : String
  outcome : String
  deriving DecidableEq

/-- The steps of the tour, and what the ledger holds after it. -/
structure DemoReport where
  steps : List DemoStep
  chain : ChainProof
  tiers : TierStats
  settlement : SettlementStats

namespace Demo

/-- A part of the tour, which may fail; the session goes on from one part to the next. -/
abbrev Tour (α : Type) := ExceptT CommandError (StateM Session) α

/-- An operation of the ledger whose failure ends the tour. -/
def act {α : Type} (operation : Session → Except LedgerError α × Session) : Tour α :=
  fun s =>
    match operation s with
    | (.ok x, s) => (.ok x, s)
    | (.error e, s) => (.error (.ledger e), s)

/-- An operation of the ledger whose failure the tour deals with. -/
def attempt {α : Type} (operation : Session → Except LedgerError α × Session) :
    Tour (Except LedgerError α) :=
  fun s => let (outcome, s) := operation s; (.ok outcome, s)

/-- Votes for an entry until it is accepted. -/
def quorum (entry : String) : Tour Nat := collectVotes entry

/-- Seals the accepted entries, of which there has to be one. -/
def sealOr (mismatch : Mismatch) : Tour Block :=
  fun s =>
    match s.sealBlock with
    | (some block, s) => (.ok block, s)
    | (none, s) => (.error (.integrity mismatch), s)

/-- A whole amount. -/
def atp (n : Int) : Decimal := Decimal.ofInt n

/-- The truth of a finding. -/
def verdict (b : Bool) : String := if b then "true" else "false"

/-- A settlement goes through consensus and is verified. -/
def settlement : Tour (String × List DemoStep) := do
  let statement ← act (·.newStatement "soc:alpha" "soc:beta")
  let statement :=
    { statement with balanceA := atp 900, balanceB := atp 1100, netPosition := atp (-200) }
  let entry ← act (·.anchor (statement.withTransfers ["demo-tx-1", "demo-tx-2"]))
  let votes ← quorum entry.id
  let block ← sealOr .nothingToSeal
  let some record ← act (·.finalizeSettlement entry.id)
    | throw (.integrity .settlementNotSealed)
  let report := (← get).ledger.verifySettlement record.settlementId
  return (statement.statementId,
    [ ⟨"anchor settlement", "proposed " ++ entry.id⟩,
      ⟨"consensus", "accepted after " ++ Text.Numeral.text votes ++ " votes, sealed block "
        ++ Text.Numeral.text block.height⟩,
      ⟨"verify settlement", statement.statementId ++ " verified=" ++ verdict report.verified⟩])

/-- A settled transfer is refused when it comes again. -/
def replay : Tour DemoStep := do
  let statement ← act (·.newStatement "soc:beta" "soc:gamma")
  match ← attempt (·.anchor (statement.withTransfers ["demo-tx-2"])) with
  | .error (.doubleSpend transfer alert) =>
    return ⟨"double-spend", transfer ++ " rejected, alert " ++ alert⟩
  | .error e => throw (.ledger e)
  | .ok entry => throw (.integrity (.replayAnchored entry.id))

/-- The drift of a check of balances and its outcome. -/
def driftText (proof : ConservationProof) : String :=
  "drift " ++ proof.drift.text ++ " conserved=" ++ verdict proof.conserved

/-- Balances are checked twice, and the second time they do not add up. -/
def conservation (settlementId : String) : Tour (List DemoStep) := do
  let balances := SortedMap.ofList [("soc:alpha", atp 900), ("soc:beta", atp 1100)]
  let conserved ← act (·.anchorConservation balances (atp 2000))
  let attached ← act (·.attachProof settlementId conserved.proofId)
  let drifted ← act (·.anchorConservation (balances.insert "soc:beta" (atp 1050)) (atp 2000))
  return [ ⟨"conservation", driftText conserved ++ " attached=" ++ verdict attached⟩,
    ⟨"conservation drift", driftText drifted⟩]

/-- A discharge is anchored. -/
def discharge : Tour DemoStep := do
  let proof ← act (·.anchorDischarge "grant:demo" (atp 40) (atp 60) "sha256:demo-evidence")
  return ⟨"adp discharge", proof.adpId ++ " anchored at stem"⟩

/-- A credential of one subtype, which is new only once. -/
def membership : Content :=
  { Content.plain (.credentialIssuance ⟨"lct:demo", "soc:alpha", "membership"⟩) with
    subtype := some "membership" }

/-- One content is taken in twice. -/
def novelty : Tour DemoStep := do
  let first ← act (·.ingest .credentialIssuance membership)
  let second ← act (·.ingest .credentialIssuance membership)
  return ⟨"snarc novelty", "first -> " ++ first.level.name ++ ", repeat -> " ++ second.level.name⟩

/-- A settlement is taken in and proposed to the chain from the stem. -/
def promotion : Tour DemoStep := do
  let statement ← act (·.newStatement "soc:gamma" "soc:delta")
  let stem ← act (·.ingest .bilateralSettlement
    (Content.plain (.bilateralSettlement (statement.withTransfers ["demo-tx-3"]))))
  match ← act (·.promoteToRoot stem.id) with
  | some root =>
    let _ ← quorum root.id
    let block ← sealOr .promotionNotSealed
    return ⟨"promote to root", root.id ++ " sealed in block " ++ Text.Numeral.text block.height⟩
  | none => return ⟨"promote to root", stem.id ++ " stayed at " ++ stem.level.name⟩

/-- The whole tour. -/
def tour : Tour DemoReport := do
  let (settlementId, settled) ← settlement
  let replayed ← replay
  let checked ← conservation settlementId
  let discharged ← discharge
  let seen ← novelty
  let promoted ← promotion
  let ledger := (← get).ledger
  match ledger.chain.proof.ensureValid with
  | .error e => throw (.ledger e)
  | .ok () =>
    return { steps := settled ++ replayed :: checked ++ [discharged, seen, promoted]
             chain := ledger.chain.proof, tiers := ledger.tierStats
             settlement := ledger.settlementStats }

/-- Runs the tour. -/
def run (s : Session) : Outcome DemoReport := tour s

end Demo

open Document

/-- The document of a step. -/
def DemoStep.document (s : DemoStep) : Json :=
  .object [("step", .string s.step), ("outcome", .string s.outcome)]

/-- The document of the tour. -/
def DemoReport.document (r : DemoReport) : Json :=
  .object [ ("steps", .list DemoStep.document r.steps), ("chain", toJson r.chain),
    ("fractal", toJson r.tiers), ("settlement", toJson r.settlement)]

end WitnessLedger.Command
