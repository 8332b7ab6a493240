import WitnessLedger.Ledger
import WitnessLedger.Proofs.Except

/-!
# Outcomes of anchoring

The four things that anchoring a statement can lead to, each with the guard under which it does
and, where the ledger changes, with the ledger after it.  A valid statement is never stopped by
the checks of the content that is made from it.

## Key results

- `Statement.validate_eq_ok_iff`: what makes a statement valid
- `Ledger.anchor_outcome`: anchoring has one of the outcomes
-/

namespace WitnessLedger

theorem requireNonBlank_eq_ok_iff {field value : String} :
    requireNonBlank field value = .ok () ↔ Text.isBlankText value = false := by
  unfold requireNonBlank
  cases Text.isBlankText value <;> simp

/-- A statement is valid when its id, its societies and its transfers are named and the societies
    differ. -/
theorem Statement.validate_eq_ok_iff {s : Statement} :
    s.validate = .ok () ↔
      Text.isBlankText s.statementId = false ∧ Text.isBlankText s.societyA = false ∧
        Text.isBlankText s.societyB = false ∧ s.societyA ≠ s.societyB ∧
        ∀ t ∈ s.transferIds, Text.isBlankText t = false := by
  unfold validate requireNonBlank
  cases Text.isBlankText s.statementId <;> cases Text.isBlankText s.societyA <;>
    cases Text.isBlankText s.societyB <;> simp [Bind.bind, Except.bind]
  -- only the last two checks are left
  by_cases hsame : s.societyA = s.societyB
  · simp [hsame, throw, throwThe, MonadExceptOf.throw]
  · cases hfirst : s.transferIds.findIdx? Text.isBlankText with
    | none => simpa [hsame, pure, Except.pure] using List.findIdx?_eq_none_iff.1 hfirst
    | some i =>
      obtain ⟨hi, hblank, -⟩ := List.findIdx?_eq_some_iff_getElem.1 hfirst
      have hmem : ∃ t ∈ s.transferIds, Text.isBlankText t = true :=
        ⟨s.transferIds[i], List.getElem_mem hi, hblank⟩
      simpa [hsame, throw, throwThe, MonadExceptOf.throw] using hmem

namespace Ledger

/-- The alert on a settled transfer that a statement covers. -/
def alertOn (l : Ledger) (now : Readings) (suffix : String) (s : Statement) (transfer : String) :
    Entry :=
  l.chain.draft now.entry suffix .doubleSpendAlert (.plain (Register.alertPayload s transfer)) .root

/-- The entry that is proposed for a statement. -/
def settlementOf (l : Ledger) (now : Readings) (suffix : String) (s : Statement) : Entry :=
  l.chain.draft now.entry suffix .bilateralSettlement (.plain (.bilateralSettlement s)) .root

/-- The ledger after a statement has been refused for a settled transfer. -/
def refusing (l : Ledger) (now : Readings) (suffix : String) (s : Statement) (transfer : String) :
    Ledger :=
  let e := l.alertOn now suffix s transfer
  let alert : DoubleSpendAlert := ⟨transfer, s.statementId, e.id, now.record⟩
  { l with chain := l.chain.push e
           register := { l.register with alerts := l.register.alerts ++ [alert] } }

/-- The ledger after a statement has been anchored. -/
def anchoring (l : Ledger) (now : Readings) (suffix : String) (s : Statement) : Ledger :=
  { l with
    chain := s.transferIds.foldl Chain.recordSettlement (l.chain.push (l.settlementOf now suffix s))
    register := { l.register with anchored := l.register.anchored ++ [s.statementId] } }

/-- What anchoring a statement can lead to. -/
inductive Outcome (l : Ledger) (now : Readings) (suffix : String) (s : Statement) :
    Except LedgerError (Anchoring × Ledger) → Prop
  | invalid {why : Invalid} (hinvalid : s.validate = .error why) :
      Outcome l now suffix s (.error (.validation why))
  | refused {transfer : String} (hvalid : s.validate = .ok ())
      (hfirst : s.transferIds.find? l.chain.isSettled = some transfer) :
      Outcome l now suffix s
        (.ok (.doubleSpend transfer (l.alertOn now suffix s transfer),
          l.refusing now suffix s transfer))
  | repeated (hvalid : s.validate = .ok ())
      (hfree : s.transferIds.find? l.chain.isSettled = none)
      (hknown : s.statementId ∈ l.register.anchored) :
      Outcome l now suffix s (.error (.duplicateStatement s.statementId))
  | anchored (hvalid : s.validate = .ok ())
      (hfree : s.transferIds.find? l.chain.isSettled = none)
      (hnew : s.statementId ∉ l.register.anchored) :
      Outcome l now suffix s
        (.ok (.proposed (l.settlementOf now suffix s), l.anchoring now suffix s))

variable {l : Ledger} {s : Statement}

/-- The transfer that an alert is about has been checked with its statement. -/
theorem validate_alertPayload {transfer : String} (hvalid : s.validate = .ok ())
    (hmem : transfer ∈ s.transferIds) : (Register.alertPayload s transfer).validate = .ok () :=
  requireNonBlank_eq_ok_iff.2 ((Statement.validate_eq_ok_iff.1 hvalid).2.2.2.2 transfer hmem)

/-- Anchoring a statement has one of the outcomes. -/
theorem anchor_outcome (l : Ledger) (now : Readings) (suffix : String) (s : Statement) :
    l.Outcome now suffix s (l.anchor now suffix s) := by
  cases hvalid : s.validate with
  | error why =>
    have heq : l.anchor now suffix s = .error (.validation why) := by
      simp only [anchor, Register.anchor, hvalid]
      rfl
    rw [heq]
    exact .invalid hvalid
  | ok _ =>
    cases hfirst : s.transferIds.find? l.chain.isSettled with
    | some transfer =>
      have hp := validate_alertPayload hvalid (List.mem_of_find?_eq_some hfirst)
      have hcontent := mapError_eq_ok_iff (f := LedgerError.validation).2
        (Content.ofPayload_eq_ok_iff.2 ⟨hp, rfl⟩)
      have hpropose : l.chain.propose now.entry suffix .doubleSpendAlert
            (.plain (Register.alertPayload s transfer)) .root =
          .ok (l.alertOn now suffix s transfer,
            l.chain.push (l.alertOn now suffix s transfer)) :=
        Chain.propose_of_admit now.entry suffix .root (Content.admit_plain hp)
      have heq : l.anchor now suffix s =
          .ok (.doubleSpend transfer (l.alertOn now suffix s transfer),
            l.refusing now suffix s transfer) := by
        simp only [anchor, Register.anchor, hvalid, hfirst, Register.raiseAlert,
          hcontent, Bind.bind, Except.bind, hpropose]
        rfl
      rw [heq]
      exact .refused hvalid hfirst
    | none =>
      by_cases hknown : s.statementId ∈ l.register.anchored
      · have hcontains : l.register.anchored.contains s.statementId = true := by simpa using hknown
        have heq : l.anchor now suffix s = .error (.duplicateStatement s.statementId) := by
          simp only [anchor, Register.anchor, hvalid, hfirst, hcontains]
          rfl
        rw [heq]
        exact .repeated hvalid hfirst hknown
      · have hcontains : l.register.anchored.contains s.statementId = false := by simpa using hknown
        have hp : (Payload.bilateralSettlement s).validate = .ok () := hvalid
        have hcontent := mapError_eq_ok_iff (f := LedgerError.validation).2
          (Content.ofPayload_eq_ok_iff.2 ⟨hp, rfl⟩)
        have hpropose : l.chain.propose now.entry suffix .bilateralSettlement
              (.plain (.bilateralSettlement s)) .root =
            .ok (l.settlementOf now suffix s, l.chain.push (l.settlementOf now suffix s)) :=
          Chain.propose_of_admit now.entry suffix .root (Content.admit_plain hp)
        have heq : l.anchor now suffix s =
            .ok (.proposed (l.settlementOf now suffix s), l.anchoring now suffix s) := by
          simp only [anchor, Register.anchor, hvalid, hfirst, hcontains,
            Register.proposeSettlement, hcontent, Bind.bind, Except.bind, hpropose]
          rfl
        rw [heq]
        exact .anchored hvalid hfirst hknown

end Ledger

/-! ## Checks of balances and discharges -/

/-- What the entry of a check of balances says. -/
def ConservationProof.payload (p : ConservationProof) : Payload :=
  .conservationProof { proofId := p.proofId, totalAtp := p.totalAtp
                       expectedTotal := p.expectedTotal, drift := p.drift
                       conserved := p.conserved
                       societyCount := UInt64.ofNat p.balances.toList.length }

/-- What the entry of a discharge says. -/
def AdpProof.payload (p : AdpProof) : Payload :=
  .adpDischarge { adpId := p.adpId, grantId := p.grantId, discharged := p.discharged
                  remaining := p.remaining, evidenceDigest := p.evidenceDigest }

namespace Ledger

variable {l l' : Ledger} {now : Readings}

theorem anchorConservation_eq_ok {proofSuffix entrySuffix : String} {balances : SortedMap Decimal}
    {expected : Decimal} {proof : ConservationProof}
    (h : l.anchorConservation now proofSuffix entrySuffix balances expected = .ok (proof, l')) :
    proof.payload.validate = .ok () ∧
      proof.entryId = Entry.proposedId .conservationProof entrySuffix ∧
      l' = { l with
             chain := l.chain.push
               (l.chain.draft now.entry entrySuffix .conservationProof (.plain proof.payload) .root)
             register := { l.register with
               conservationProofs := l.register.conservationProofs ++ [proof] } } := by
  simp only [anchorConservation, bind_eq_ok_iff, pure_eq_ok_iff, Prod.mk.injEq] at h
  obtain ⟨⟨_, r, c⟩, h, rfl, rfl⟩ := h
  unfold Register.anchorConservation at h
  split at h
  · next total _ =>
    split at h
    · next drift _ =>
      simp only [bind_eq_ok_iff, mapError_eq_ok_iff, Content.ofPayload_eq_ok_iff, pure_eq_ok_iff,
        Prod.mk.injEq] at h
      obtain ⟨_, ⟨hvalid, rfl⟩, ⟨e, c₁⟩, hpropose, rfl, rfl, rfl⟩ := h
      obtain ⟨-, rfl, rfl⟩ := Chain.propose_eq_ok_iff.1 hpropose
      exact ⟨hvalid, rfl, rfl⟩
    · cases h
  · cases h

theorem anchorDischarge_eq_ok {adpSuffix entrySuffix grantId evidenceDigest : String}
    {discharged remaining : Decimal} {proof : AdpProof}
    (h : l.anchorDischarge now adpSuffix entrySuffix grantId discharged remaining
      evidenceDigest = .ok (proof, l')) :
    proof.payload.validate = .ok () ∧
      proof.entryId = Entry.proposedId .adpDischarge entrySuffix ∧
      l' = { l with
             chain := l.chain.push
               (l.chain.draft now.entry entrySuffix .adpDischarge (.plain proof.payload) .stem)
             register := { l.register with adpProofs := l.register.adpProofs ++ [proof] } } := by
  simp only [anchorDischarge, Register.anchorDischarge, bind_eq_ok_iff, mapError_eq_ok_iff,
    Content.ofPayload_eq_ok_iff, pure_eq_ok_iff, Prod.mk.injEq] at h
  obtain ⟨⟨_, r, c⟩, ⟨_, ⟨hvalid, rfl⟩, ⟨e, c₁⟩, hpropose, rfl, rfl, rfl⟩, rfl, rfl⟩ := h
  obtain ⟨-, rfl, rfl⟩ := Chain.propose_eq_ok_iff.1 hpropose
  exact ⟨hvalid, rfl, rfl⟩

end Ledger

end WitnessLedger
