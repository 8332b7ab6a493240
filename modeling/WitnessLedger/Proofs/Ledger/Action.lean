import WitnessLedger.Proofs.Chain.Action
import WitnessLedger.Proofs.Settlement.Outcome

/-!
# Actions on a ledger

The operations that change a ledger, as data.  Each of them is seen in the chain as operations of
the chain (`onChain`), and a run of a ledger so gives a run of its chain.  Of a run are noted the
statements that it anchored, those that it refused because a transfer was settled, and the
transfers that were marked as settled by hand.
-/

namespace WitnessLedger.Ledger

/-- A ledger on which nothing has happened. -/
def new (panel : Panel) (rule : ForkRule) (capacity significance : Nat) (scope : SortedSet) :
    Ledger :=
  { chain := .new panel rule, tiers := .new capacity significance scope, register := .empty }

/-- What a configuration sets up is such a ledger. -/
theorem exists_new_of_ofConfig {c : Config} {l : Ledger} (h : ofConfig c = .ok l) :
    ∃ panel, Panel.of c.consensusNodes c.consensusThreshold = .ok panel ∧
      l = new panel c.forkRule c.compostCapacity c.significanceThreshold c.relevanceScope := by
  unfold ofConfig at h
  cases hvalid : c.validate with
  | error err => simp [hvalid, Bind.bind, Except.bind] at h
  | ok _ =>
    cases hpanel : Panel.of c.consensusNodes c.consensusThreshold with
    | error err => simp [hvalid, hpanel, Bind.bind, Except.bind] at h
    | ok panel =>
      simp only [hvalid, hpanel, Bind.bind, Except.bind, Pure.pure, Except.pure,
        Except.ok.injEq] at h
      exact ⟨panel, rfl, h.symm⟩

/-- An operation with all that it is given: the time, the suffixes of new ids, and its
    arguments. -/
inductive Action where
  | propose (now : Instant) (suffix : String) (kind : EntryKind) (content : Content)
    (level : Level)
  | submitVote (now : Instant) (entry witness : String) (accept : Bool) (reason : Option String)
  | voteAndFinalize (now : Instant) (entry witness : String) (accept : Bool)
  | finalize (entry : String)
  | reject (entry : String)
  | sealBlock (now : Instant)
  | recordSettlement (transfer : String)
  | ingest (now : Readings) (suffix : String) (kind : EntryKind) (content : Content)
  | promoteToRoot (now : Readings) (suffix entry : String)
  | resetNovelty
  | anchor (now : Readings) (suffix : String) (s : Statement)
  | finalizeSettlement (now : Instant) (entry : String)
  | anchorConservation (now : Readings) (proofSuffix entrySuffix : String)
    (balances : SortedMap Decimal) (expected : Decimal)
  | anchorDischarge (now : Readings) (adpSuffix entrySuffix grantId : String)
    (discharged remaining : Decimal) (evidenceDigest : String)
  | markConserved (settlement : String)
  | attachProof (settlement proofId : String)

/-- The ledger after an operation. -/
def act (l : Ledger) : Action → Ledger
  | .propose now suffix kind content level =>
    Run.stateAfter l (l.propose now suffix kind content level)
  | .submitVote now entry witness accept reason =>
    Run.stateAfter l (l.submitVote now entry witness accept reason)
  | .voteAndFinalize now entry witness accept =>
    Run.stateAfter l (l.voteAndFinalize now entry witness accept)
  | .finalize entry => Run.stateAfter l (l.finalize entry)
  | .reject entry => (l.reject entry).toOption.getD l
  | .sealBlock now => (l.sealBlock now).2
  | .recordSettlement transfer => l.recordSettlement transfer
  | .ingest now suffix kind content => Run.stateAfter l (l.ingest now suffix kind content)
  | .promoteToRoot now suffix entry => Run.stateAfter l (l.promoteToRoot now suffix entry)
  | .resetNovelty => l.resetNovelty
  | .anchor now suffix s => Run.stateAfter l (l.anchor now suffix s)
  | .finalizeSettlement now entry => Run.stateAfter l (l.finalizeSettlement now entry)
  | .anchorConservation now proofSuffix entrySuffix balances expected =>
    Run.stateAfter l (l.anchorConservation now proofSuffix entrySuffix balances expected)
  | .anchorDischarge now adpSuffix entrySuffix grantId discharged remaining evidenceDigest =>
    Run.stateAfter l (l.anchorDischarge now adpSuffix entrySuffix grantId discharged remaining
      evidenceDigest)
  | .markConserved settlement => (l.markConserved settlement).toOption.getD l
  | .attachProof settlement proofId => Run.stateAfter l (l.attachProof settlement proofId)

/-- The ledger after a run. -/
def run (l : Ledger) (as : List Action) : Ledger := as.foldl act l

/-! ## What is noted of a run -/

/-- A statement that is anchored, with the entry that is proposed for it. -/
def anchors (l : Ledger) : Action → List (Statement × Entry)
  | .anchor now suffix s =>
    match l.anchor now suffix s with
    | .ok (.proposed e, _) => [(s, e)]
    | _ => []
  | _ => []

/-- A statement that is refused for a settled transfer, with the transfer and the alert that the
    refusal names. -/
structure Refusal where
  statement : Statement
  transfer : String
  alert : Entry

/-- The refusal of a statement for a settled transfer. -/
def refuses (l : Ledger) : Action → List Refusal
  | .anchor now suffix s =>
    match l.anchor now suffix s with
    | .ok (.doubleSpend transfer alert, _) => [⟨s, transfer, alert⟩]
    | _ => []
  | _ => []

/-- A transfer that is marked as settled by hand. -/
def records (_ : Ledger) : Action → List String
  | .recordSettlement transfer => [transfer]
  | _ => []

/-- The statements that a run anchors, each with its entry. -/
def anchorings (l : Ledger) (as : List Action) : List (Statement × Entry) :=
  Run.chronicle act anchors l as

/-- The refusals of a run. -/
def refusals (l : Ledger) (as : List Action) : List Refusal := Run.chronicle act refuses l as

/-- The transfers that a run marks as settled by hand. -/
def recorded (l : Ledger) (as : List Action) : List String := Run.chronicle act records l as

/-! ## The run of the chain -/

/-- What an operation does to the chain, as operations of the chain. -/
def onChain (l : Ledger) : Action → List Chain.Action
  | .propose now suffix kind content level => [.propose now suffix kind content level]
  | .submitVote now entry witness accept reason => [.submitVote now entry witness accept reason]
  | .voteAndFinalize now entry witness accept =>
    match l.chain.submitVote now entry witness accept none with
    | .ok _ => [.submitVote now entry witness accept none, .finalize entry]
    | .error _ => []
  | .finalize entry => [.finalize entry]
  | .reject entry => [.reject entry]
  | .sealBlock now => [.sealBlock now]
  | .recordSettlement transfer => [.recordSettlement transfer]
  | .promoteToRoot now suffix entry =>
    match l.tiers.stem.find? (·.id == entry) with
    | some e => [.propose now.entry suffix e.kind e.content .root]
    | none => []
  | .anchor now suffix s =>
    match l.anchor now suffix s with
    | .ok (.proposed _, _) =>
      .propose now.entry suffix .bilateralSettlement (.plain (.bilateralSettlement s)) .root ::
        s.transferIds.map .recordSettlement
    | .ok (.doubleSpend transfer _, _) =>
      [.propose now.entry suffix .doubleSpendAlert (.plain (Register.alertPayload s transfer))
        .root]
    | .error _ => []
  | .anchorConservation now proofSuffix entrySuffix balances expected =>
    match l.anchorConservation now proofSuffix entrySuffix balances expected with
    | .ok (proof, _) =>
      [.propose now.entry entrySuffix .conservationProof (.plain proof.payload) .root]
    | .error _ => []
  | .anchorDischarge now adpSuffix entrySuffix grantId discharged remaining evidenceDigest =>
    match l.anchorDischarge now adpSuffix entrySuffix grantId discharged remaining
        evidenceDigest with
    | .ok (proof, _) => [.propose now.entry entrySuffix .adpDischarge (.plain proof.payload) .stem]
    | .error _ => []
  | .ingest .. | .resetNovelty | .finalizeSettlement .. | .markConserved .. | .attachProof .. => []

/-- A run as it is seen in the chain. -/
def chainRun (l : Ledger) (as : List Action) : List Chain.Action := Run.chronicle act onChain l as

/-- The suffixes that a run takes for the ids of entries of the chain. -/
def suffixes (l : Ledger) (as : List Action) : List String := l.chain.suffixes (l.chainRun as)

/-- The entries that a run proposes to the chain. -/
def proposals (l : Ledger) (as : List Action) : List Entry := l.chain.proposals (l.chainRun as)

theorem run_concat (l : Ledger) (as : List Action) (a : Action) :
    l.run (as ++ [a]) = (l.run as).act a := List.foldl_append

end WitnessLedger.Ledger
