import WitnessLedger.Command.Arguments
import WitnessLedger.Command.Quorum
import WitnessLedger.Document.Basic

/-! # Simulation

A number of settlements between four societies, each with a transfer of its own, is anchored,
voted on and sealed in blocks of a given size.  Every so often a settlement covers the transfer
of the one before it again, and is refused.  At the end the sealed settlements are verified,
and the balances are checked against the total. -/

namespace WitnessLedger.Command

/-- The findings of a simulation. -/
structure SimulationReport where
  requested : Nat
  anchored : Nat
  doubleSpends : Nat
  verified : Nat
  blocks : Nat
  entries : Nat
  totalCost : Nat
  chainValid : Bool
  merkleRootsValid : Bool
  conserved : Bool
  latestHash : Digest
  deriving DecidableEq

namespace Simulation

/-- The societies, each of which settles with the next. -/
def societies : List String := ["soc:amber", "soc:cobalt", "soc:jade", "soc:umber"]

/-- The society whose turn it is. -/
def society (i : Nat) : String := (societies[i % societies.length]?).getD ""

/-- Whether a settlement covers the transfer of the one before it. -/
def isReplay (every : Option Nat) (i : Nat) : Bool := every.any fun d => 0 < i && i % d == 0

/-- The transfer that a settlement covers. -/
def transferId (every : Option Nat) (i : Nat) : String :=
  "sim-tx-" ++ Text.Numeral.text (if isReplay every i then i - 1 else i)

/-- How far a simulation has come. -/
structure Progress where
  /-- The entries that were accepted. -/
  anchored : List String
  doubleSpends : Nat
  /-- The number of entries that were accepted since the last block. -/
  unsealed : Nat

/-- Collects the votes on an anchored settlement, and seals a block when it is full. -/
def accept (blockSize : Nat) (entry : String) (p : Progress) (s : Session) : Outcome Progress :=
  match collectVotes entry s with
  | (.error e, s) => (.error e, s)
  | (.ok _, s) =>
    let anchored := p.anchored ++ [entry]
    if p.unsealed + 1 = blockSize then (.ok { p with anchored, unsealed := 0 }, s.sealBlock.2)
    else (.ok { p with anchored, unsealed := p.unsealed + 1 }, s)

/-- One settlement. -/
def settle (o : SimulationOptions) (i : Nat) (p : Progress) (s : Session) : Outcome Progress :=
  match s.newStatement (society i) (society (i + 1)) with
  | (.error e, s) => (.error (.ledger e), s)
  | (.ok statement, s) =>
    let statement := { statement with netPosition := Decimal.ofInt (i + 1) }
    match s.anchor (statement.withTransfers [transferId o.doubleSpendEvery i]) with
    | (.ok e, s) => accept o.blockSize e.id p s
    | (.error (.doubleSpend _ _), s) => (.ok { p with doubleSpends := p.doubleSpends + 1 }, s)
    | (.error e, s) => (.error (.ledger e), s)

/-- A number of settlements, beginning with the one at `i`. -/
def settleAll (o : SimulationOptions) (count i : Nat) (p : Progress) (s : Session) :
    Outcome Progress :=
  match count with
  | 0 => (.ok p, s)
  | count + 1 =>
    match settle o i p s with
    | (.ok p, s) => settleAll o count (i + 1) p s
    | (.error e, s) => (.error e, s)

/-- Records the settlements of entries and counts those that are verified. -/
def verifyAll (count : Nat) : List String → Session → Outcome Nat
  | [], s => (.ok count, s)
  | entry :: entries, s =>
    match s.finalizeSettlement entry with
    | (.error e, s) => (.error (.ledger e), s)
    | (.ok none, s) => verifyAll count entries s
    | (.ok (some record), s) =>
      let verified := (s.ledger.verifySettlement record.settlementId).verified
      verifyAll (if verified then count + 1 else count) entries s

/-- The balances of the societies, which share the total equally. -/
def balances (total : Int) : SortedMap Decimal :=
  SortedMap.ofList (societies.map fun name => (name, Decimal.share total societies.length))

/-- The report after the settlements. -/
def report (o : SimulationOptions) (p : Progress) (verified : Nat) (s : Session) :
    Outcome SimulationReport :=
  match s.anchorConservation (balances o.totalAtp) (Decimal.ofInt o.totalAtp) with
  | (.error e, s) => (.error (.ledger e), s)
  | (.ok proof, s) =>
    let chain := s.ledger.chain.proof
    (.ok { requested := o.settlements, anchored := p.anchored.length
           doubleSpends := p.doubleSpends, verified, blocks := chain.blocks
           entries := chain.entries, totalCost := chain.totalCost, chainValid := chain.valid
           merkleRootsValid := chain.merkleRootsValid, conserved := proof.conserved
           latestHash := chain.latestHash }, s)

/-- Refuses options that a simulation cannot work with. -/
def check (o : SimulationOptions) : Except BadArgument Unit := do
  if o.blockSize = 0 then throw .blockSize
  if o.doubleSpendEvery = some 0 then throw .doubleSpendInterval
  if o.totalAtp < 0 then throw .totalAtp

/-- Runs a simulation. -/
def run (o : SimulationOptions) (s : Session) : Outcome SimulationReport :=
  match check o with
  | .error argument => (.error (.invalidArgument argument), s)
  | .ok () =>
    match settleAll o o.settlements 0 ⟨[], 0, 0⟩ s with
    | (.error e, s) => (.error e, s)
    | (.ok p, s) =>
      match verifyAll 0 p.anchored s.sealBlock.2 with
      | (.error e, s) => (.error e, s)
      | (.ok verified, s) => report o p verified s

end Simulation

open Document

/-- The document of the findings of a simulation. -/
def SimulationReport.document (r : SimulationReport) : Json :=
  .object [ ("settlements_requested", toJson r.requested),
    ("settlements_anchored", toJson r.anchored), ("double_spends", toJson r.doubleSpends),
    ("verified_settlements", toJson r.verified), ("blocks", toJson r.blocks),
    ("entries", toJson r.entries), ("total_atp_cost", toJson r.totalCost),
    ("chain_valid", toJson r.chainValid), ("merkle_roots_valid", toJson r.merkleRootsValid),
    ("conserved", toJson r.conserved), ("latest_hash", toJson r.latestHash.hex)]

end WitnessLedger.Command
