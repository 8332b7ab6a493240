import WitnessLedger.Proofs.InPlace.Chain
import WitnessLedger.Proofs.Ledger.Action

/-!
# Operations of a ledger in place

The operations of a ledger write its chain, its tiers and its register one after the other.  As for
the chain, each operation is the sequence of its checks and writes, and its steps leave what the
operation on a whole ledger leaves.

## Key results

- `Ledger.InPlace.anchor_eq`: a refusal for a settled transfer keeps the alert, and any other
  failure leaves everything as it was
- `Ledger.InPlace.perform_eq`: the steps of each operation lead to its answer and to the ledger
  after it
-/

namespace WitnessLedger

namespace Tiers.InPlace

open WitnessLedger.InPlace

/-- Takes in content.  The kind and the subtype are seen before the entry is placed. -/
def ingest (now : Readings) (suffix : String) (kind : EntryKind) (content : Content) :
    InPlace Tiers Entry := do
  check <| content.admit kind
  let t ← get
  let score := Score.of t.significance t.scope t.novelty kind content Level.compost.cost
  let e := atLevel (t.draft now.entry suffix kind content) score.level
  modify fun t => { t with novelty := t.novelty.insert kind content.subtype }
  modify fun t => t.place now.record e score
  modify fun t => { t with compost := t.compost ++ [e] }
  modify fun t => { t with compost := lastOf t.capacity t.compost }
  return e

theorem ingest_eq (t : Tiers) (now : Readings) (suffix : String) (kind : EntryKind)
    (content : Content) :
    ingest now suffix kind content t = allOrNothing t (t.ingest now suffix kind content) := by
  refine check_bind_eq fun _ _ => congrArg (EStateM.Result.ok _) ?_
  -- placing writes neither what is seen nor the compost
  unfold place
  split <;> rfl

end Tiers.InPlace

namespace Register.InPlace

open WitnessLedger.InPlace

/-- Changes the record of a settlement. -/
def updateSettlement (id : String) (f : SettlementRecord → SettlementRecord) :
    InPlace Register Unit := do
  if ((← get).settlement? id).isSome then
    modify fun r => { r with settlements := updateFirst id f r.settlements }
  else throw (.notFound (.settlement id))

theorem updateSettlement_eq (r : Register) (id : String)
    (f : SettlementRecord → SettlementRecord) :
    updateSettlement id f r =
      allOrNothing r ((r.updateSettlement id f).map fun r' => ((), r')) := by
  unfold updateSettlement Register.updateSettlement
  rw [get_bind]
  split <;> rfl

/-- Notes on a settlement that the balances were checked. -/
def markConserved (id : String) : InPlace Register Unit :=
  updateSettlement id fun record => { record with conservationVerified := true }

/-- Attaches a check of balances to a settlement, and tells its outcome, which the settlement
    takes over. -/
def attachProof (id proofId : String) : InPlace Register Bool := do
  match (← get).conservationProofs.find? (·.proofId == proofId) with
  | none => throw (.notFound (.conservationProof proofId))
  | some proof =>
    updateSettlement id fun record =>
      { record with conservationProofId := some proofId, conservationVerified := proof.conserved }
    return proof.conserved

theorem attachProof_eq (r : Register) (id proofId : String) :
    attachProof id proofId r = allOrNothing r (r.attachProof id proofId) := by
  unfold attachProof Register.attachProof
  rw [get_bind]
  cases r.conservationProofs.find? (·.proofId == proofId) with
  | none => rfl
  | some proof =>
    dsimp only
    have hupdate := updateSettlement_eq r id fun record =>
      { record with conservationProofId := some proofId, conservationVerified := proof.conserved }
    cases hresult : r.updateSettlement id _ with
    | error err =>
      rw [hresult] at hupdate
      exact bind_of_error hupdate
    | ok r' =>
      rw [hresult] at hupdate
      exact bind_of_ok hupdate

end Register.InPlace

namespace Ledger.InPlace

open WitnessLedger.InPlace

variable {α : Type}

/-- Steps on the chain of a ledger. -/
def onChain (x : InPlace Chain α) : InPlace Ledger α :=
  within Ledger.chain (fun l chain => { l with chain }) x

/-- Steps on the tiers of a ledger. -/
def onTiers (x : InPlace Tiers α) : InPlace Ledger α :=
  within Ledger.tiers (fun l tiers => { l with tiers }) x

/-- Steps on the register of a ledger. -/
def onRegister (x : InPlace Register α) : InPlace Ledger α :=
  within Ledger.register (fun l register => { l with register }) x

/-- Proposes an entry of the stem to the chain. -/
def promoteToRoot (now : Readings) (suffix id : String) : InPlace Ledger (Option Entry) := do
  match (← get).tiers.stem.find? (·.id == id) with
  | none => return none
  | some e =>
    let root ← onChain (Chain.InPlace.propose now.entry suffix e.kind e.content .root)
    let step : Promotion :=
      { entryId := id, rootEntryId := some root.id, source := .stem, target := .root
        total := none, timestamp := now.record }
    onTiers (modify fun t => { t with promotions := t.promotions ++ [step] })
    return some root

/-- Refuses a statement for a settled transfer.  The alert is proposed and kept before the error is
    returned. -/
def raiseAlert (now : Readings) (suffix : String) (s : Statement) (transfer : String) :
    InPlace Ledger Entry := do
  let content ← check
    ((Content.ofPayload (Register.alertPayload s transfer)).mapError .validation)
  let e ← onChain (Chain.InPlace.propose now.entry suffix .doubleSpendAlert content .root)
  let alert : DoubleSpendAlert :=
    { transferId := transfer, statementId := s.statementId, alertEntryId := e.id
      timestamp := now.record }
  onRegister (modify fun r => { r with alerts := r.alerts ++ [alert] })
  throw (.doubleSpend transfer e.id)

/-- Proposes a settlement and marks its transfers as settled. -/
def proposeSettlement (now : Instant) (suffix : String) (s : Statement) : InPlace Ledger Entry := do
  let content ← check ((Content.ofPayload (.bilateralSettlement s)).mapError .validation)
  let e ← onChain (Chain.InPlace.propose now suffix .bilateralSettlement content .root)
  onChain (forM s.transferIds fun t => modify (·.recordSettlement t))
  onRegister (modify fun r => { r with anchored := r.anchored ++ [s.statementId] })
  return e

/-- Anchors a statement. -/
def anchor (now : Readings) (suffix : String) (s : Statement) : InPlace Ledger Entry := do
  check (s.validate.mapError .validation)
  let l ← get
  match s.transferIds.find? l.chain.isSettled with
  | some transfer => raiseAlert now suffix s transfer
  | none =>
    if l.register.anchored.contains s.statementId then throw (.duplicateStatement s.statementId)
    else proposeSettlement now.entry suffix s

/-- Records the settlement of a sealed entry. -/
def finalizeSettlement (now : Instant) (id : String) :
    InPlace Ledger (Option SettlementRecord) := do
  let l ← get
  match l.register.settlements.find? (·.entryId == id) with
  | some record => return some record
  | none =>
    let e ← check (l.chain.findEntry id)
    match e.content.statement? with
    | none => throw (.validation (.notSettlement id e.kind))
    | some s =>
      if e.phase != .finalized then return none
      else if (l.register.settlement? s.statementId).isSome then
        throw (.duplicateStatement s.statementId)
      else
        let record := Register.recordOf e s now
        onRegister (modify fun r => { r with settlements := r.settlements ++ [record] })
        return some record

/-- Anchors a check of balances, whatever its outcome. -/
def anchorConservation (now : Readings) (proofSuffix entrySuffix : String)
    (balances : SortedMap Decimal) (expected : Decimal) : InPlace Ledger ConservationProof := do
  let some total := Register.balanceTotal balances | throw (.validation .balanceOverflow)
  let some drift := Register.driftOf total expected | throw (.validation .driftOverflow)
  let conserved := drift.lt Register.tolerance
  let proofId := "cons:" ++ proofSuffix
  let content ← check ((Content.ofPayload (.conservationProof
    { proofId, totalAtp := total, expectedTotal := expected, drift, conserved
      societyCount := UInt64.ofNat balances.toList.length })).mapError .validation)
  let e ← onChain (Chain.InPlace.propose now.entry entrySuffix .conservationProof content .root)
  let proof : ConservationProof :=
    { proofId, entryId := e.id, balances, totalAtp := total, expectedTotal := expected, drift
      conserved, timestamp := now.record }
  onRegister (modify fun r => { r with conservationProofs := r.conservationProofs ++ [proof] })
  return proof

/-- Anchors a discharge on the stem. -/
def anchorDischarge (now : Readings) (adpSuffix entrySuffix grantId : String)
    (discharged remaining : Decimal) (evidenceDigest : String) : InPlace Ledger AdpProof := do
  let adpId := "adp:" ++ adpSuffix
  let content ← check ((Content.ofPayload (.adpDischarge
    { adpId, grantId, discharged, remaining, evidenceDigest })).mapError .validation)
  let e ← onChain (Chain.InPlace.propose now.entry entrySuffix .adpDischarge content .stem)
  let proof : AdpProof :=
    { adpId, entryId := e.id, grantId, discharged, remaining, evidenceDigest
      timestamp := now.record }
  onRegister (modify fun r => { r with adpProofs := r.adpProofs ++ [proof] })
  return proof

variable {l : Ledger}

theorem onChain_eq {x : InPlace Chain α} {r : Except LedgerError (α × Chain)}
    (h : x l.chain = allOrNothing l.chain r) :
    onChain x l = allOrNothing l (r >>= fun p => pure (p.1, { l with chain := p.2 })) := by
  unfold onChain within
  rw [h]
  cases r <;> rfl

theorem onTiers_eq {x : InPlace Tiers α} {r : Except LedgerError (α × Tiers)}
    (h : x l.tiers = allOrNothing l.tiers r) :
    onTiers x l = allOrNothing l (r >>= fun p => pure (p.1, { l with tiers := p.2 })) := by
  unfold onTiers within
  rw [h]
  cases r <;> rfl

theorem onRegister_eq {x : InPlace Register α} {r : Except LedgerError (α × Register)}
    (h : x l.register = allOrNothing l.register r) :
    onRegister x l = allOrNothing l (r >>= fun p => pure (p.1, { l with register := p.2 })) := by
  unfold onRegister within
  rw [h]
  cases r <;> rfl

/-- What comes after steps on the chain decides, unless it fails after they have written. -/
theorem onChain_bind_eq {β : Type} {x : InPlace Chain α} {r : Except LedgerError (α × Chain)}
    (hx : x l.chain = allOrNothing l.chain r) {f : α → InPlace Ledger β}
    {g : α × Chain → Except LedgerError (β × Ledger)}
    (h : ∀ a c, f a { l with chain := c } = allOrNothing l (g (a, c))) :
    (onChain x >>= f) l = allOrNothing l (r >>= g) := by
  have honChain := onChain_eq hx
  cases r with
  | error err => exact bind_of_error honChain
  | ok p => exact (bind_of_ok honChain).trans (h p.1 p.2)

theorem promoteToRoot_eq (l : Ledger) (now : Readings) (suffix id : String) :
    promoteToRoot now suffix id l = allOrNothing l (l.promoteToRoot now suffix id) := by
  unfold promoteToRoot Ledger.promoteToRoot Tiers.promoteToRoot
  rw [get_bind]
  cases l.tiers.stem.find? (·.id == id) with
  | none => rfl
  | some e =>
    simp only [bind_assoc]
    exact onChain_bind_eq (Chain.InPlace.propose_eq ..) fun _ _ => rfl

theorem finalizeSettlement_eq (l : Ledger) (now : Instant) (id : String) :
    finalizeSettlement now id l = allOrNothing l (l.finalizeSettlement now id) := by
  unfold finalizeSettlement Ledger.finalizeSettlement Register.finalizeSettlement
  rw [get_bind]
  cases l.register.settlements.find? (·.entryId == id) with
  | some record => rfl
  | none =>
    cases hfound : l.chain.entry? id with
    | none =>
      have hmissing : l.chain.findEntry id = .error (.notFound (.entry id)) := by
        rw [Chain.findEntry, hfound]
      exact bind_of_error (check_of_error hmissing)
    | some e =>
      have hentry : l.chain.findEntry id = .ok e := by rw [Chain.findEntry, hfound]
      refine (bind_of_ok (check_of_ok hentry)).trans ?_
      dsimp only
      cases e.content.statement? with
      | none => rfl
      | some s =>
        dsimp only
        cases e.phase != .finalized with
        | true => rfl
        | false => cases (l.register.settlement? s.statementId).isSome <;> rfl

theorem anchorConservation_eq (l : Ledger) (now : Readings) (proofSuffix entrySuffix : String)
    (balances : SortedMap Decimal) (expected : Decimal) :
    anchorConservation now proofSuffix entrySuffix balances expected l =
      allOrNothing l (l.anchorConservation now proofSuffix entrySuffix balances expected) := by
  unfold anchorConservation Ledger.anchorConservation Register.anchorConservation
  cases Register.balanceTotal balances with
  | none => rfl
  | some total =>
    dsimp only
    cases Register.driftOf total expected with
    | none => rfl
    | some drift =>
      simp only [bind_assoc]
      refine check_bind_eq fun content _ => ?_
      exact onChain_bind_eq (Chain.InPlace.propose_eq ..) fun _ _ => rfl

theorem anchorDischarge_eq (l : Ledger) (now : Readings) (adpSuffix entrySuffix grantId : String)
    (discharged remaining : Decimal) (evidenceDigest : String) :
    anchorDischarge now adpSuffix entrySuffix grantId discharged remaining evidenceDigest l =
      allOrNothing l (l.anchorDischarge now adpSuffix entrySuffix grantId discharged remaining
        evidenceDigest) := by
  unfold anchorDischarge Ledger.anchorDischarge Register.anchorDischarge
  simp only [bind_assoc]
  refine check_bind_eq fun content _ => ?_
  exact onChain_bind_eq (Chain.InPlace.propose_eq ..) fun _ _ => rfl

/-- How anchoring ends, where a settled transfer is an error. -/
def anchorResult (l : Ledger) :
    Except LedgerError (Anchoring × Ledger) → EStateM.Result LedgerError Ledger Entry
  | .ok (.proposed e, l') => .ok e l'
  | .ok (.doubleSpend transfer alert, l') => .error (.doubleSpend transfer alert.id) l'
  | .error err => .error err l

theorem onChain_propose {now : Instant} {suffix : String} {kind : EntryKind} {content : Content}
    {level : Level} (h : content.admit kind = .ok ()) :
    onChain (Chain.InPlace.propose now suffix kind content level) l =
      .ok (l.chain.draft now suffix kind content level)
        { l with chain := l.chain.push (l.chain.draft now suffix kind content level) } := by
  have hpropose := Chain.propose_of_admit (c := l.chain) now suffix level h
  rw [onChain_eq (Chain.InPlace.propose_eq ..), hpropose]
  rfl

/-- A valid payload makes content. -/
theorem check_ofPayload {p : Payload} (h : p.validate = .ok ()) :
    (check ((Content.ofPayload p).mapError .validation) : InPlace Ledger Content) l =
      .ok (.plain p) l :=
  check_of_ok (mapError_eq_ok_iff.2 (Content.ofPayload_eq_ok_iff.2 ⟨h, rfl⟩))

theorem raiseAlert_eq {now : Readings} {suffix : String} {s : Statement} {transfer : String}
    (h : (Register.alertPayload s transfer).validate = .ok ()) :
    raiseAlert now suffix s transfer l =
      .error (.doubleSpend transfer (l.alertOn now suffix s transfer).id)
        (l.refusing now suffix s transfer) := by
  unfold raiseAlert
  rw [bind_of_ok (check_ofPayload h)]
  exact (bind_of_ok (onChain_propose (Content.admit_plain h))).trans rfl

theorem proposeSettlement_eq {now : Readings} {suffix : String} {s : Statement}
    (h : s.validate = .ok ()) :
    proposeSettlement now.entry suffix s l =
      .ok (l.settlementOf now suffix s) (l.anchoring now suffix s) := by
  have hpayload : (Payload.bilateralSettlement s).validate = .ok () := h
  have hsettled : ∀ l' : Ledger,
      onChain (forM s.transferIds fun t => modify (·.recordSettlement t)) l' =
        .ok ⟨⟩ { l' with chain := s.transferIds.foldl Chain.recordSettlement l'.chain } := by
    intro l'
    unfold onChain within
    rw [forM_modify]
  unfold proposeSettlement
  rw [bind_of_ok (check_ofPayload hpayload)]
  refine (bind_of_ok (onChain_propose (Content.admit_plain hpayload))).trans ?_
  rw [bind_of_ok (hsettled _)]
  rfl

/-- A refusal for a settled transfer keeps the alert, and any other failure leaves everything as it
    was. -/
theorem anchor_eq (l : Ledger) (now : Readings) (suffix : String) (s : Statement) :
    anchor now suffix s l = anchorResult l (l.anchor now suffix s) := by
  have h := l.anchor_outcome now suffix s
  generalize l.anchor now suffix s = r at h
  unfold anchor
  cases h with
  | invalid hinvalid =>
    have hcheck := congrArg (Except.mapError LedgerError.validation) hinvalid
    exact bind_of_error (check_of_error hcheck)
  | @refused transfer hvalid hfirst =>
    rw [bind_of_ok (check_of_ok (mapError_eq_ok_iff.2 hvalid)), get_bind, hfirst]
    exact raiseAlert_eq (validate_alertPayload hvalid (List.mem_of_find?_eq_some hfirst))
  | repeated hvalid hfree hknown =>
    have hcontains : l.register.anchored.contains s.statementId = true := by simpa using hknown
    rw [bind_of_ok (check_of_ok (mapError_eq_ok_iff.2 hvalid)), get_bind, hfree, hcontains]
    rfl
  | anchored hvalid hfree hnew =>
    have hcontains : l.register.anchored.contains s.statementId = false := by simpa using hnew
    rw [bind_of_ok (check_of_ok (mapError_eq_ok_iff.2 hvalid)), get_bind, hfree, hcontains]
    exact proposeSettlement_eq hvalid

/-! ## All operations -/

/-- The steps of an operation.  The result is whether it has found something to do: a vote that is
    recorded is something, also where it leads to no quorum. -/
def perform : Action → InPlace Ledger Bool
  | .propose now suffix kind content level =>
    (fun _ => true) <$> onChain (Chain.InPlace.propose now suffix kind content level)
  | .submitVote now entry witness accept reason =>
    (fun _ => true) <$> onChain (Chain.InPlace.submitVote now entry witness accept reason)
  | .voteAndFinalize now entry witness accept =>
    (fun _ => true) <$> onChain (Chain.InPlace.voteAndFinalize now entry witness accept)
  | .finalize entry => onChain (Chain.InPlace.finalize entry)
  | .reject entry => (fun _ => true) <$> onChain (Chain.InPlace.reject entry)
  | .sealBlock now => Option.isSome <$> onChain (Chain.InPlace.sealBlock now)
  | .recordSettlement transfer =>
    (fun _ => true) <$> onChain (modify (·.recordSettlement transfer))
  | .ingest now suffix kind content =>
    (fun _ => true) <$> onTiers (Tiers.InPlace.ingest now suffix kind content)
  | .promoteToRoot now suffix entry => Option.isSome <$> promoteToRoot now suffix entry
  | .resetNovelty => (fun _ => true) <$> onTiers (modify (·.resetNovelty))
  | .anchor now suffix s => (fun _ => true) <$> anchor now suffix s
  | .finalizeSettlement now entry => Option.isSome <$> finalizeSettlement now entry
  | .anchorConservation now proofSuffix entrySuffix balances expected =>
    (fun _ => true) <$> anchorConservation now proofSuffix entrySuffix balances expected
  | .anchorDischarge now adpSuffix entrySuffix grantId discharged remaining evidenceDigest =>
    (fun _ => true) <$>
      anchorDischarge now adpSuffix entrySuffix grantId discharged remaining evidenceDigest
  | .markConserved settlement =>
    (fun _ => true) <$> onRegister (Register.InPlace.markConserved settlement)
  | .attachProof settlement proofId =>
    (fun _ => true) <$> onRegister (Register.InPlace.attachProof settlement proofId)

end Ledger.InPlace

/-- What an operation answers: an error, or whether it has found something to do.  A refusal for a
    settled transfer is an error that names the alert. -/
def Ledger.answer (l : Ledger) : Ledger.Action → Except LedgerError Bool
  | .propose now suffix kind content level =>
    (l.propose now suffix kind content level).map fun _ => true
  | .submitVote now entry witness accept reason =>
    (l.submitVote now entry witness accept reason).map fun _ => true
  | .voteAndFinalize now entry witness accept =>
    (l.voteAndFinalize now entry witness accept).map fun _ => true
  | .finalize entry => (l.finalize entry).map (·.1)
  | .reject entry => (l.reject entry).map fun _ => true
  | .sealBlock now => .ok (l.sealBlock now).1.isSome
  | .recordSettlement _ => .ok true
  | .ingest now suffix kind content => (l.ingest now suffix kind content).map fun _ => true
  | .promoteToRoot now suffix entry => (l.promoteToRoot now suffix entry).map (·.1.isSome)
  | .resetNovelty => .ok true
  | .anchor now suffix s =>
    match l.anchor now suffix s with
    | .ok (.proposed _, _) => .ok true
    | .ok (.doubleSpend transfer alert, _) => .error (.doubleSpend transfer alert.id)
    | .error err => .error err
  | .finalizeSettlement now entry => (l.finalizeSettlement now entry).map (·.1.isSome)
  | .anchorConservation now proofSuffix entrySuffix balances expected =>
    (l.anchorConservation now proofSuffix entrySuffix balances expected).map fun _ => true
  | .anchorDischarge now adpSuffix entrySuffix grantId discharged remaining evidenceDigest =>
    (l.anchorDischarge now adpSuffix entrySuffix grantId discharged remaining
      evidenceDigest).map fun _ => true
  | .markConserved settlement => (l.markConserved settlement).map fun _ => true
  | .attachProof settlement proofId => (l.attachProof settlement proofId).map fun _ => true

namespace Ledger.InPlace

open WitnessLedger.InPlace

variable {α : Type} {l : Ledger}

/-- How an operation ends, by what it answers and the ledger that it leaves. -/
def result (l : Ledger) : Except LedgerError Bool → EStateM.Result LedgerError Ledger Bool
  | .ok done => .ok done l
  | .error err => .error err l

/-- Steps that write all or nothing lead to the ledger after the operation. -/
theorem map_eq {x : InPlace Ledger α} {r : Except LedgerError (α × Ledger)}
    (hx : x l = allOrNothing l r) (f : α → Bool) :
    (f <$> x) l = result (Run.stateAfter l r) (r.map fun p => f p.1) := by
  simp only [Functor.map, EStateM.map, hx]
  cases r <;> rfl

/-- The steps of each operation lead to its answer and to the ledger after it. -/
theorem perform_eq (l : Ledger) (a : Action) : perform a l = result (l.act a) (l.answer a) := by
  cases a with
  | propose now suffix kind content level =>
    exact map_eq (onChain_eq (Chain.InPlace.propose_eq ..)) _
  | submitVote now entry witness accept reason =>
    exact map_eq (onChain_eq (Chain.InPlace.submitVote_eq ..)) _
  | voteAndFinalize now entry witness accept =>
    exact map_eq (onChain_eq (Chain.InPlace.voteAndFinalize_eq ..)) _
  | finalize entry =>
    have hsteps := onChain_eq (Chain.InPlace.finalize_eq l.chain entry)
    refine hsteps.trans ?_
    simp only [act, answer, Ledger.finalize]
    cases l.chain.finalize entry <;> rfl
  | reject entry =>
    have hsteps := onChain_eq (Chain.InPlace.reject_eq l.chain entry)
    refine (map_eq hsteps _).trans ?_
    simp only [act, answer, Ledger.reject]
    cases l.chain.reject entry <;> rfl
  | sealBlock now =>
    have hsteps : onChain (Chain.InPlace.sealBlock now) l =
        .ok (l.sealBlock now).1 (l.sealBlock now).2 := by
      unfold onChain within
      rw [Chain.InPlace.sealBlock_eq]
      rfl
    simp only [perform, Functor.map, EStateM.map, hsteps]
    rfl
  | recordSettlement transfer => rfl
  | ingest now suffix kind content => exact map_eq (onTiers_eq (Tiers.InPlace.ingest_eq ..)) _
  | promoteToRoot now suffix entry => exact map_eq (promoteToRoot_eq ..) _
  | resetNovelty => rfl
  | anchor now suffix s =>
    have hsteps := anchor_eq l now suffix s
    simp only [perform, act, answer, Functor.map, EStateM.map, hsteps]
    rcases l.anchor now suffix s with err | ⟨outcome, l'⟩
    · rfl
    · cases outcome <;> rfl
  | finalizeSettlement now entry => exact map_eq (finalizeSettlement_eq ..) _
  | anchorConservation now proofSuffix entrySuffix balances expected =>
    exact map_eq (anchorConservation_eq ..) _
  | anchorDischarge now adpSuffix entrySuffix grantId discharged remaining evidenceDigest =>
    exact map_eq (anchorDischarge_eq ..) _
  | markConserved settlement =>
    have hsteps := onRegister_eq (l := l)
      (Register.InPlace.updateSettlement_eq l.register settlement
        fun record => { record with conservationVerified := true })
    refine (map_eq hsteps _).trans ?_
    simp only [act, answer, Ledger.markConserved, Register.markConserved]
    cases l.register.updateSettlement settlement _ <;> rfl
  | attachProof settlement proofId =>
    exact map_eq (onRegister_eq (Register.InPlace.attachProof_eq ..)) _

end Ledger.InPlace

end WitnessLedger
