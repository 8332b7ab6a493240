import WitnessLedger.Proofs.Chain.Reachable
import WitnessLedger.Proofs.Ledger.Action

/-!
# Effects of operations on a ledger

All that an operation can do to a ledger.  Most operations change one part of it: the chain, the
tiers, or the records of the register.  What every run keeps is shown by going through these
cases; nothing else opens the operations.

## Key results

- `act_effect`: each operation has one of the effects
-/

namespace WitnessLedger

namespace Tiers

variable {t t' : Tiers} {now : Readings}

/-- Taking content in logs at most one step. -/
theorem promotions_ingest {suffix : String} {kind : EntryKind} {content : Content} {e : Entry}
    (h : t.ingest now suffix kind content = .ok (e, t')) : t.promotions <+: t'.promotions := by
  simp only [ingest, bind_eq_ok_iff, pure_eq_ok_iff, Prod.mk.injEq] at h
  obtain ⟨_, -, rfl, rfl⟩ := h
  simp only [place]
  split
  · exact List.prefix_append _ _
  · exact List.prefix_append _ _
  · exact List.prefix_refl _

/-- The step by which an entry of the stem comes to the chain. -/
def rootStep (now : Instant) (suffix id : String) (kind : EntryKind) : Promotion :=
  { entryId := id, rootEntryId := some (Entry.proposedId kind suffix), source := .stem
    target := .root, total := none, timestamp := now }

end Tiers

/-- Whether a record is another one up to what is noted of the check of balances. -/
def SettlementRecord.IsNoted (r r' : SettlementRecord) : Prop :=
  r' = { r with conservationVerified := r'.conservationVerified
                conservationProofId := r'.conservationProofId }

namespace Register

variable {r r' : Register} {c : Chain}

/-- What an operation can make of the records of settlements. -/
inductive Revision (r : Register) (c : Chain) : List SettlementRecord → Prop
  | kept : Revision r c r.settlements
  /-- A sealed settlement is recorded that has no record, and whose statement id has none. -/
  | added {id : String} {e : Entry} {s : Statement} (now : Instant)
      (hnone : r.settlements.find? (·.entryId == id) = none) (he : c.entry? id = some e)
      (hs : e.content.statement? = some s) (hphase : e.phase = .finalized)
      (hfree : r.settlement? s.statementId = none) :
      Revision r c (r.settlements ++ [recordOf e s now])
  /-- The check of balances is noted on a record. -/
  | noted {f : SettlementRecord → SettlementRecord} (id : String)
      (hf : ∀ x : SettlementRecord, x.IsNoted (f x)) :
      Revision r c (updateFirst id f r.settlements)

/-- A change of a settlement changes nothing else. -/
theorem updateSettlement_eq_ok {id : String} {f : SettlementRecord → SettlementRecord}
    (h : r.updateSettlement id f = .ok r') :
    r' = { r with settlements := updateFirst id f r.settlements } := by
  unfold updateSettlement at h
  split at h
  · exact (Except.ok.inj h).symm
  · cases h

theorem revision_of_markConserved {id : String} (c : Chain) (h : r.markConserved id = .ok r') :
    ∃ settlements, r.Revision c settlements ∧ r' = { r with settlements } := by
  refine ⟨_, ?_, updateSettlement_eq_ok h⟩
  exact .noted id fun _ => rfl

theorem revision_of_attachProof {id proofId : String} {conserved : Bool} (c : Chain)
    (h : r.attachProof id proofId = .ok (conserved, r')) :
    ∃ settlements, r.Revision c settlements ∧ r' = { r with settlements } := by
  unfold attachProof at h
  split at h
  · cases h
  · obtain ⟨r₁, hupdate, h⟩ := bind_eq_ok_iff.1 h
    rw [pure_eq_ok_iff, Prod.mk.injEq] at h
    obtain ⟨-, rfl⟩ := h
    refine ⟨_, ?_, updateSettlement_eq_ok hupdate⟩
    exact .noted id fun _ => rfl

theorem revision_of_finalizeSettlement {now : Instant} {id : String}
    {record : Option SettlementRecord} (h : r.finalizeSettlement c now id = .ok (record, r')) :
    ∃ settlements, r.Revision c settlements ∧ r' = { r with settlements } := by
  have same : ∃ settlements, r.Revision c settlements ∧ r = { r with settlements } :=
    ⟨r.settlements, .kept, rfl⟩
  unfold finalizeSettlement at h
  split at h
  · cases h; exact same
  · next hnone =>
    split at h
    · cases h
    · next e he =>
      split at h
      · cases h
      · next s hs =>
        by_cases hphase : e.phase = .finalized
        · rw [if_neg (by simp [hphase])] at h
          split at h
          · cases h
          · next hfree =>
            cases h
            exact ⟨_, .added now hnone he hs hphase (by simpa using hfree), rfl⟩
        · rw [if_pos (by simpa using hphase)] at h
          cases h; exact same

end Register

namespace Ledger

/-- The ledger after an entry of the stem has been proposed. -/
def promoting (l : Ledger) (now : Readings) (suffix id : String) (e : Entry) : Ledger :=
  { l with
    chain := l.chain.push (l.chain.draft now.entry suffix e.kind e.content .root)
    tiers := { l.tiers with
      promotions := l.tiers.promotions ++ [Tiers.rootStep now.record suffix id e.kind] } }

/-- What an operation can do to a ledger. -/
inductive Effect (l : Ledger) : Action → Ledger → Prop
  /-- The operation fails or finds nothing to do. -/
  | idle {a : Action} (hchain : l.onChain a = []) (hanchors : l.anchors a = [])
      (hrefuses : l.refuses a = []) : Effect l a l
  /-- Only the chain changes. -/
  | chained {a : Action} (hanchors : l.anchors a = []) (hrefuses : l.refuses a = []) :
      Effect l a { l with chain := l.chain.run (l.onChain a) }
  /-- Only the tiers change. -/
  | tiered {a : Action} {tiers : Tiers} (hchain : l.onChain a = []) (hanchors : l.anchors a = [])
      (hrefuses : l.refuses a = []) (hpromotions : l.tiers.promotions <+: tiers.promotions) :
      Effect l a { l with tiers }
  /-- Only the records of settlements change. -/
  | recorded {a : Action} {settlements : List SettlementRecord}
      (hrevision : l.register.Revision l.chain settlements) (hchain : l.onChain a = [])
      (hanchors : l.anchors a = []) (hrefuses : l.refuses a = []) :
      Effect l a { l with register := { l.register with settlements } }
  /-- A check of balances or a discharge is proposed and kept. -/
  | proved {a : Action} (conservationProofs : List ConservationProof) (adpProofs : List AdpProof)
      (hanchors : l.anchors a = []) (hrefuses : l.refuses a = []) :
      Effect l a
        { l with chain := l.chain.run (l.onChain a)
                 register := { l.register with conservationProofs, adpProofs } }
  /-- An entry of the stem is proposed. -/
  | promoted {now : Readings} {suffix id : String} {e : Entry}
      (hstem : l.tiers.stem.find? (·.id == id) = some e)
      (hvalid : e.content.admit e.kind = .ok ()) :
      Effect l (.promoteToRoot now suffix id) (l.promoting now suffix id e)
  /-- A statement is refused for a settled transfer. -/
  | refused {now : Readings} {suffix : String} {s : Statement} {transfer : String}
      (hvalid : s.validate = .ok ())
      (hfirst : s.transferIds.find? l.chain.isSettled = some transfer)
      (heq : l.anchor now suffix s = .ok (.doubleSpend transfer (l.alertOn now suffix s transfer),
        l.refusing now suffix s transfer)) :
      Effect l (.anchor now suffix s) (l.refusing now suffix s transfer)
  /-- A statement is anchored. -/
  | anchored {now : Readings} {suffix : String} {s : Statement} (hvalid : s.validate = .ok ())
      (hfree : s.transferIds.find? l.chain.isSettled = none)
      (hnew : s.statementId ∉ l.register.anchored)
      (heq : l.anchor now suffix s =
        .ok (.proposed (l.settlementOf now suffix s), l.anchoring now suffix s)) :
      Effect l (.anchor now suffix s) (l.anchoring now suffix s)

variable {l : Ledger} {a : Action} {β : Type}

/-- An operation that is one of the chain. -/
theorem stateAfter_chain (l : Ledger) (r : Except LedgerError (β × Chain)) :
    Run.stateAfter l (r >>= fun p => pure (p.1, { l with chain := p.2 })) =
      { l with chain := Run.stateAfter l.chain r } := by
  cases r <;> rfl

private theorem effect_of_chain (h : l.act a = { l with chain := l.chain.run (l.onChain a) })
    (hanchors : l.anchors a = []) (hrefuses : l.refuses a = []) : Effect l a (l.act a) := by
  rw [h]
  exact .chained hanchors hrefuses

/-- An operation that proposes a payload and keeps a proof. -/
private theorem effect_of_proof {now : Instant} {suffix : String} {payload : Payload}
    {level : Level} {conservationProofs : List ConservationProof} {adpProofs : List AdpProof}
    (hvalid : payload.validate = .ok ())
    (hact : l.act a =
      { l with
        chain := l.chain.push (l.chain.draft now suffix payload.kind (.plain payload) level)
        register := { l.register with conservationProofs, adpProofs } })
    (hchain : l.onChain a = [.propose now suffix payload.kind (.plain payload) level])
    (hanchors : l.anchors a = []) (hrefuses : l.refuses a = []) : Effect l a (l.act a) := by
  have hpush := Chain.act_propose (c := l.chain) now suffix level (Content.admit_plain hvalid)
  have hrun : l.chain.run (l.onChain a) =
      l.chain.push (l.chain.draft now suffix payload.kind (.plain payload) level) := by
    rw [hchain]
    exact hpush
  rw [hact, ← hrun]
  exact .proved _ _ hanchors hrefuses

theorem act_promoteToRoot {now : Readings} {suffix id : String} {e : Entry}
    (hstem : l.tiers.stem.find? (·.id == id) = some e)
    (hvalid : e.content.admit e.kind = .ok ()) :
    l.act (.promoteToRoot now suffix id) = l.promoting now suffix id e := by
  have hpropose := Chain.propose_of_admit (c := l.chain) now.entry suffix .root hvalid
  simp only [act, promoteToRoot, Tiers.promoteToRoot, hstem, hpropose, Bind.bind, Except.bind]
  rfl

/-- Each operation has one of the effects. -/
theorem act_effect (l : Ledger) (a : Action) : Effect l a (l.act a) := by
  cases a with
  | propose now suffix kind content level => exact effect_of_chain (stateAfter_chain l _) rfl rfl
  | submitVote now entry witness accept reason =>
    exact effect_of_chain (stateAfter_chain l _) rfl rfl
  | voteAndFinalize now entry witness accept =>
    have heq : l.act (.voteAndFinalize now entry witness accept) =
        { l with
          chain := Run.stateAfter l.chain (l.chain.voteAndFinalize now entry witness accept) } :=
      stateAfter_chain l _
    refine effect_of_chain (heq.trans ?_) rfl rfl
    cases h : l.chain.submitVote now entry witness accept none with
    | ok r =>
      have hvote : l.chain.act (.submitVote now entry witness accept none) = r.2 := by
        rw [Chain.act, h]
        rfl
      rw [Chain.voteAndFinalize_eq h, onChain, h, ← hvote]
      rfl
    | error err =>
      simp only [Chain.voteAndFinalize, onChain, h]
      rfl
  | finalize entry => exact effect_of_chain (stateAfter_chain l _) rfl rfl
  | reject entry =>
    have heq : l.act (.reject entry) =
        ((l.chain.reject entry).map fun chain => { l with chain }).toOption.getD l := rfl
    have hrun : l.chain.run (l.onChain (.reject entry)) =
        (l.chain.reject entry).toOption.getD l.chain := rfl
    refine effect_of_chain ?_ rfl rfl
    rw [heq, hrun]
    cases l.chain.reject entry <;> rfl
  | sealBlock now => exact .chained rfl rfl
  | recordSettlement transfer => exact .chained rfl rfl
  | ingest now suffix kind content =>
    simp only [act, ingest]
    cases h : l.tiers.ingest now suffix kind content with
    | error err => exact .idle rfl rfl rfl
    | ok r => exact .tiered rfl rfl rfl (Tiers.promotions_ingest h)
  | promoteToRoot now suffix id =>
    cases hstem : l.tiers.stem.find? (·.id == id) with
    | none =>
      simp only [act, promoteToRoot, Tiers.promoteToRoot, hstem]
      exact .idle (by simp only [onChain, hstem]) rfl rfl
    | some e =>
      cases hvalid : e.content.admit e.kind with
      | error err =>
        -- the chain is asked, and refuses
        have hfail := Chain.propose_of_not_admit (c := l.chain) now.entry suffix .root hvalid
        have hchain : l.chain.run (l.onChain (.promoteToRoot now suffix id)) = l.chain := by
          simp only [onChain, hstem]
          show Run.stateAfter l.chain _ = _
          rw [hfail]
          rfl
        refine effect_of_chain ?_ rfl rfl
        rw [hchain]
        simp only [act, promoteToRoot, Tiers.promoteToRoot, hstem, hfail]
        rfl
      | ok _ =>
        rw [act_promoteToRoot hstem hvalid]
        exact .promoted hstem hvalid
  | resetNovelty => exact .tiered rfl rfl rfl (List.prefix_refl _)
  | anchor now suffix s =>
    have h := l.anchor_outcome now suffix s
    generalize hr : l.anchor now suffix s = r at h
    have hact : l.act (.anchor now suffix s) = Run.stateAfter l r := by rw [act, hr]
    rw [hact]
    cases h with
    | invalid hinvalid =>
      exact .idle (by simp only [onChain, hr]) (by simp only [anchors, hr])
        (by simp only [refuses, hr])
    | refused hvalid hfirst => exact .refused hvalid hfirst hr
    | repeated hvalid hfree hknown =>
      exact .idle (by simp only [onChain, hr]) (by simp only [anchors, hr])
        (by simp only [refuses, hr])
    | anchored hvalid hfree hnew => exact .anchored hvalid hfree hnew hr
  | finalizeSettlement now entry =>
    simp only [act, finalizeSettlement]
    cases heq : l.register.finalizeSettlement l.chain now entry with
    | error err => exact .idle rfl rfl rfl
    | ok r =>
      obtain ⟨settlements, hrevision, hr⟩ := Register.revision_of_finalizeSettlement heq
      show Effect l _ { l with register := r.2 }
      rw [hr]
      exact .recorded hrevision rfl rfl rfl
  | anchorConservation now proofSuffix entrySuffix balances expected =>
    cases h : l.anchorConservation now proofSuffix entrySuffix balances expected with
    | error err =>
      simp only [act, h]
      exact .idle (by simp only [onChain, h]) rfl rfl
    | ok r =>
      obtain ⟨proof, l'⟩ := r
      obtain ⟨hvalid, -, heq⟩ := anchorConservation_eq_ok h
      have hact : l.act (.anchorConservation now proofSuffix entrySuffix balances expected) =
          l' := by rw [act, h, Run.stateAfter_ok]
      have hchain : l.onChain (.anchorConservation now proofSuffix entrySuffix balances expected) =
          [.propose now.entry entrySuffix .conservationProof (.plain proof.payload) .root] := by
        simp only [onChain, h]
      exact effect_of_proof hvalid (hact.trans heq) hchain rfl rfl
  | anchorDischarge now adpSuffix entrySuffix grantId discharged remaining evidenceDigest =>
    cases h : l.anchorDischarge now adpSuffix entrySuffix grantId discharged remaining
        evidenceDigest with
    | error err =>
      simp only [act, h]
      exact .idle (by simp only [onChain, h]) rfl rfl
    | ok r =>
      obtain ⟨proof, l'⟩ := r
      obtain ⟨hvalid, -, heq⟩ := anchorDischarge_eq_ok h
      have hact : l.act (.anchorDischarge now adpSuffix entrySuffix grantId discharged remaining
          evidenceDigest) = l' := by rw [act, h, Run.stateAfter_ok]
      have hchain : l.onChain (.anchorDischarge now adpSuffix entrySuffix grantId discharged
          remaining evidenceDigest) =
          [.propose now.entry entrySuffix .adpDischarge (.plain proof.payload) .stem] := by
        simp only [onChain, h]
      exact effect_of_proof hvalid (hact.trans heq) hchain rfl rfl
  | markConserved settlement =>
    simp only [act, markConserved]
    cases heq : l.register.markConserved settlement with
    | error err => exact .idle rfl rfl rfl
    | ok r =>
      obtain ⟨settlements, hrevision, hr⟩ := Register.revision_of_markConserved l.chain heq
      show Effect l _ { l with register := r }
      rw [hr]
      exact .recorded hrevision rfl rfl rfl
  | attachProof settlement proofId =>
    simp only [act, attachProof]
    cases heq : l.register.attachProof settlement proofId with
    | error err => exact .idle rfl rfl rfl
    | ok r =>
      obtain ⟨settlements, hrevision, hr⟩ := Register.revision_of_attachProof l.chain heq
      show Effect l _ { l with register := r.2 }
      rw [hr]
      exact .recorded hrevision rfl rfl rfl

variable {l' : Ledger}

/-- An operation changes the chain as the operations of the chain do that it is seen as. -/
theorem Effect.chain_eq (h : Effect l a l') : l'.chain = l.chain.run (l.onChain a) := by
  cases h with
  | idle hchain => rw [hchain]; rfl
  | chained => rfl
  | tiered hchain => rw [hchain]; rfl
  | recorded _ hchain => rw [hchain]; rfl
  | proved => rfl
  | promoted hstem hvalid =>
    simp only [onChain, hstem]
    exact (Chain.act_propose _ _ .root hvalid).symm
  | refused hvalid hfirst heq =>
    have hp := validate_alertPayload hvalid (List.mem_of_find?_eq_some hfirst)
    simp only [onChain, heq]
    exact (Chain.act_propose _ _ .root (Content.admit_plain hp)).symm
  | @anchored now suffix s hvalid hfree hnew heq =>
    have hp : (Payload.bilateralSettlement s).validate = .ok () := hvalid
    have hpush : l.chain.act (.propose now.entry suffix .bilateralSettlement
          (.plain (.bilateralSettlement s)) .root) = l.chain.push (l.settlementOf now suffix s) :=
      Chain.act_propose now.entry suffix .root (Content.admit_plain hp)
    simp only [onChain, heq]
    show s.transferIds.foldl Chain.recordSettlement _ =
      (s.transferIds.map .recordSettlement).foldl Chain.act (l.chain.act _)
    rw [List.foldl_map, hpush]
    rfl

/-- Promotions are only added. -/
theorem Effect.prefix_promotions (h : Effect l a l') :
    l.tiers.promotions <+: l'.tiers.promotions := by
  cases h with
  | tiered _ _ _ hpromotions => exact hpromotions
  | promoted => exact List.prefix_append _ _
  | _ => exact List.prefix_refl _

/-- What becomes of the records of settlements. -/
theorem Effect.revision (h : Effect l a l') :
    l.register.Revision l.chain l'.register.settlements := by
  cases h with
  | recorded hrevision => exact hrevision
  | _ => exact .kept

/-- Whether an alert is the one that a refusal names. -/
structure Refusal.IsKept (r : Refusal) (a : DoubleSpendAlert) : Prop where
  transfer : a.transferId = r.transfer
  statement : a.statementId = r.statement.statementId
  entry : a.alertEntryId = r.alert.id

/-- What an operation adds to the register of statements and of alerts. -/
theorem Effect.register (h : Effect l a l') :
    l'.register.anchored = l.register.anchored ++ (l.anchors a).map (·.1.statementId) ∧
      ∃ raised, l'.register.alerts = l.register.alerts ++ raised ∧
        List.Forall₂ Refusal.IsKept (l.refuses a) raised := by
  have nothing : l.anchors a = [] → l.refuses a = [] →
      l.register.anchored = l.register.anchored ++ (l.anchors a).map (·.1.statementId) ∧
        ∃ raised, l.register.alerts = l.register.alerts ++ raised ∧
          List.Forall₂ Refusal.IsKept (l.refuses a) raised := by
    intro hanchors hrefuses
    rw [hanchors, hrefuses]
    exact ⟨(List.append_nil _).symm, [], (List.append_nil _).symm, .nil⟩
  cases h with
  | idle _ hanchors hrefuses => exact nothing hanchors hrefuses
  | chained hanchors hrefuses => exact nothing hanchors hrefuses
  | tiered _ hanchors hrefuses => exact nothing hanchors hrefuses
  | recorded _ _ hanchors hrefuses => exact nothing hanchors hrefuses
  | proved _ _ hanchors hrefuses => exact nothing hanchors hrefuses
  | promoted => exact nothing rfl rfl
  | refused _ _ heq =>
    simp only [anchors, refuses, heq]
    exact ⟨(List.append_nil _).symm, _, rfl, .cons ⟨rfl, rfl, rfl⟩ .nil⟩
  | anchored _ _ _ heq =>
    simp only [anchors, refuses, heq]
    exact ⟨rfl, [], (List.append_nil _).symm, .nil⟩

end Ledger

end WitnessLedger
