import WitnessLedger.Proofs.Settlement.Once
import WitnessLedger.Proofs.Settlement.Records

/-!
# Packaging of anchored settlements

A statement id is kept unique at two moments: anchoring compares it with the statements that were
anchored, and recording with the settlements that are recorded.  A settlement from the stem is in
the second of these sets only.  If it is recorded first, then a statement with its id can still be
anchored and sealed, but its settlement is refused when it is to be recorded.

## Key results

- `Coherent.finalizeSettlement_of_new`, `Coherent.finalizeSettlement_of_claimed`: what becomes of a
  sealed settlement that is to be recorded
- `mem_proposals_of_mem_anchorings`: the entry of an anchored statement has been proposed with it
- `isPromoted_of_claims`: what takes the statement id of an anchored settlement comes from the stem
- `packages_iff`: an anchored and sealed settlement can be recorded as long as nothing has
-/

namespace WitnessLedger.Ledger

/-- Whether the settlement of an entry can be recorded, with its statement and as it stands in the
    chain. -/
def Packages (l : Ledger) (now : Instant) (s : Statement) (id : String) : Prop :=
  ∃ record register, l.finalizeSettlement now id = .ok (some record, { l with register }) ∧
    record ∈ register.settlements ∧ record.entryId = id ∧ record.statement = s ∧
    ∃ e, record.IsOf l.chain e

/-! ## Recording a sealed settlement -/

section Sealed

variable {l : Ledger} {id : String} {e : Entry} {s : Statement}

/-- A sealed settlement is recorded where neither the entry nor the statement has a record. -/
theorem finalizeSettlement_of_new (he : l.chain.entry? id = some e)
    (hs : e.content.statement? = some s) (hphase : e.phase = .finalized)
    (hnone : ∀ r ∈ l.register.settlements, r.entryId ≠ id)
    (hfree : ∀ r ∈ l.register.settlements, r.settlementId ≠ s.statementId) (now : Instant) :
    l.finalizeSettlement now id =
      .ok (some (Register.recordOf e s now),
        { l with register := { l.register with
            settlements := l.register.settlements ++ [Register.recordOf e s now] } }) := by
  have hentry : l.register.settlements.find? (·.entryId == id) = none := by
    rw [List.find?_eq_none]
    exact fun r hr => by simpa using hnone r hr
  have hstatement : l.register.settlement? s.statementId = none := by
    rw [Register.settlement?, List.find?_eq_none]
    exact fun r hr => by simpa using hfree r hr
  simp only [finalizeSettlement, Register.finalizeSettlement, hentry, he, hs, hphase, hstatement]
  rfl

/-- A sealed settlement without a record is refused where another entry has the record of its
    statement id. -/
theorem finalizeSettlement_of_claimed (he : l.chain.entry? id = some e)
    (hs : e.content.statement? = some s) (hphase : e.phase = .finalized)
    (hnone : ∀ r ∈ l.register.settlements, r.entryId ≠ id)
    (hclaimed : ∃ r ∈ l.register.settlements, r.settlementId = s.statementId) (now : Instant) :
    l.finalizeSettlement now id = .error (.duplicateStatement s.statementId) := by
  have hentry : l.register.settlements.find? (·.entryId == id) = none := by
    rw [List.find?_eq_none]
    exact fun r hr => by simpa using hnone r hr
  have hstatement : (l.register.settlement? s.statementId).isSome = true := by
    rw [Register.settlement?, List.find?_isSome]
    obtain ⟨r, hr, hid⟩ := hclaimed
    exact ⟨r, hr, by simpa using hid⟩
  simp only [finalizeSettlement, Register.finalizeSettlement, hentry, he, hs, hphase, hstatement]
  rfl

/-- A sealed settlement can be recorded exactly when no other entry has the record of its statement
    id, and is refused otherwise. -/
theorem Coherent.packages_iff_unclaimed (hl : l.Coherent) (he : l.chain.entry? id = some e)
    (hs : e.content.statement? = some s) (hphase : e.phase = .finalized) (now : Instant) :
    (l.Packages now s id ↔
      ∀ r ∈ l.register.settlements, r.entryId ≠ id → r.settlementId ≠ s.statementId) ∧
    (¬ l.Packages now s id →
      l.finalizeSettlement now id = .error (.duplicateStatement s.statementId)) := by
  have hid : e.id = id := (Chain.of_entry?_eq_some he).2
  by_cases hrecorded : ∃ r ∈ l.register.settlements, r.entryId = id
  · -- the entry has its record, which also has the statement id
    obtain ⟨r, hr, rfl⟩ := hrecorded
    obtain ⟨m, hm, -⟩ := hl.records r hr
    have hme : m = e := Option.some.inj (hm.entry_eq.symm.trans he)
    subst hme
    have hstatement : r.statement = s := by
      have hpayload := (Content.payload_eq_of_statement? hs).symm.trans hm.payload_eq
      exact (Payload.bilateralSettlement.inj hpayload).symm
    have hpackages : l.Packages now s r.entryId :=
      ⟨r, l.register, hl.finalizeSettlement_eq hr now, hr, rfl, hstatement, m, hm⟩
    refine ⟨⟨fun _ x hx hne hclaims => hne ?_, fun _ => hpackages⟩, absurd hpackages⟩
    rw [← hstatement, hm.statementId_eq] at hclaims
    rw [List.inj_on_of_nodup_map hl.settlementIds_nodup hx hr hclaims]
  · have hnone : ∀ r ∈ l.register.settlements, r.entryId ≠ id :=
      fun r hr heq => hrecorded ⟨r, hr, heq⟩
    by_cases hclaimed : ∃ r ∈ l.register.settlements, r.settlementId = s.statementId
    · have hrefused := finalizeSettlement_of_claimed he hs hphase hnone hclaimed now
      refine ⟨⟨?_, fun hfree => ?_⟩, fun _ => hrefused⟩
      · rintro ⟨record, register, hok, -⟩
        rw [hrefused] at hok
        cases hok
      · obtain ⟨r, hr, hclaims⟩ := hclaimed
        exact absurd hclaims (hfree r hr (hnone r hr))
    · have hfree : ∀ r ∈ l.register.settlements, r.settlementId ≠ s.statementId :=
        fun r hr heq => hclaimed ⟨r, hr, heq⟩
      have hpackages : l.Packages now s id := by
        refine ⟨_, _, finalizeSettlement_of_new he hs hphase hnone hfree now,
          List.mem_append_right _ (List.mem_singleton_self _), hid, rfl, e, ?_⟩
        refine ⟨?_, hphase, Content.payload_eq_of_statement? hs, rfl, rfl, rfl⟩
        show l.chain.entry? e.id = some e
        rwa [hid]
      exact ⟨⟨fun _ r hr _ => hfree r hr, fun _ => hpackages⟩, absurd hpackages⟩

end Sealed

/-! ## Anchored settlements -/

variable {panel : Panel} {rule : ForkRule} {capacity significance : Nat} {scope : SortedSet}
  {as : List Action}

/-- The entry of an anchored statement has been proposed with it. -/
theorem mem_proposals_of_mem_anchorings {l : Ledger} {p : Statement × Entry}
    (h : p ∈ l.anchorings as) :
    p.2 ∈ l.proposals as ∧ p.2.content = .plain (.bilateralSettlement p.1) := by
  obtain ⟨before, a, after, rfl, hp⟩ := Run.mem_chronicle.1 h
  obtain ⟨now, suffix, ha, hsingle, hentry, hvalid, -, -⟩ := exists_of_mem_anchors hp
  refine ⟨?_, by rw [hentry]; rfl⟩
  rw [proposals_eq]
  refine Run.mem_chronicle.2 ⟨before, a, after, rfl, ?_⟩
  -- the operation is seen in the chain as the proposal, with the transfers marked after it
  have houtcome := (before.foldl act l).anchor_outcome now suffix p.1
  subst ha
  simp only [anchors, proposes, onChain] at hsingle ⊢
  generalize (before.foldl act l).anchor now suffix p.1 = r at hsingle houtcome ⊢
  cases houtcome with
  | anchored =>
    rw [Chain.proposals_cons, Chain.proposals_recordSettlement, List.append_nil, hentry]
    exact Chain.mem_proposes_propose.2 ⟨Content.admit_plain hvalid, rfl⟩
  | _ => cases hsingle

/-- The entry of an anchored statement is still there, with the statement. -/
theorem exists_entry_of_mem_anchorings
    (h : ((new panel rule capacity significance scope).suffixes as).Nodup)
    {p : Statement × Entry} :
    let l := new panel rule capacity significance scope
    p ∈ l.anchorings as →
      ∃ e, (l.run as).chain.entry? p.2.id = some e ∧ e.content.statement? = some p.1 := by
  intro l hp
  obtain ⟨hproposed, hcontent⟩ := mem_proposals_of_mem_anchorings hp
  obtain ⟨e, he, hprogress⟩ :=
    (traced_run panel rule capacity significance scope as h).exists_entry hproposed
  refine ⟨e, he, ?_⟩
  rw [hprogress.content_eq, hcontent]
  rfl

/-- A recorded settlement that has the statement id of an anchored one, but another entry, comes
    from the stem. -/
theorem isPromoted_of_claims (hdirect : ∀ a ∈ as, ¬ a.ProposesSettlement)
    (h : ((new panel rule capacity significance scope).suffixes as).Nodup)
    {p : Statement × Entry} {r : SettlementRecord} :
    let l := new panel rule capacity significance scope
    p ∈ l.anchorings as → r ∈ (l.run as).register.settlements → r.entryId ≠ p.2.id →
      r.settlementId = p.1.statementId → (l.run as).IsPromoted r.entryId := by
  intro l hp hr hne hclaims
  obtain ⟨m, hm, -⟩ := (coherent_of_nodup h).records r hr
  have hconsistent : (l.run as).chain.Consistent := (traced_run panel rule _ _ scope as h).consistent
  have hid : m.id = r.entryId := (Chain.of_entry?_eq_some hm.entry_eq).2
  have hsealed : (r.entryId, r.statement) ∈ (l.run as).chain.sealedSettlements := by
    obtain ⟨height, place, hat⟩ :=
      hconsistent.exists_sealedAt? (Chain.of_entry?_eq_some hm.entry_eq).1 hm.phase_eq
    obtain ⟨b, hb, hplace⟩ := Chain.sealedAt?_eq_some_iff.1 hat
    refine Chain.mem_sealedSettlements.2
      ⟨b, List.mem_of_getElem? hb, m, List.mem_of_getElem? hplace, hid, ?_⟩
    rw [Content.statement?, hm.payload_eq]
  rcases anchored_or_promoted_of_sealed hdirect h hsealed with ⟨e, heid, hanchored⟩ | hpromoted
  · -- both were anchored, and no two anchored statements have the same id
    have hnodup : ((l.anchorings as).map (·.1.statementId)).Nodup :=
      List.pairwise_map.2 ((accounted_run panel rule capacity significance scope as).apart.imp
        fun hpq => hpq.1)
    have hsame : p.1.statementId = r.statement.statementId := by rw [hm.statementId_eq, hclaims]
    have heq := List.inj_on_of_nodup_map hnodup hp hanchored hsame
    rw [heq] at hne
    exact absurd heid.symm hne
  · exact hpromoted

/-- Of every run in which settlements are not proposed directly and no suffix is taken twice: the
    settlement of an anchored statement whose entry is sealed can be recorded exactly when no
    settlement from the stem has been recorded under its statement id; otherwise it is refused as a
    duplicate. -/
theorem packages_iff (panel : Panel) (rule : ForkRule) (capacity significance : Nat)
    (scope : SortedSet) (as : List Action) (hdirect : ∀ a ∈ as, ¬ a.ProposesSettlement)
    (h : ((new panel rule capacity significance scope).suffixes as).Nodup)
    (p : Statement × Entry) (hp : p ∈ (new panel rule capacity significance scope).anchorings as)
    (hphase : ((new panel rule capacity significance scope).run as).chain.phase? p.2.id =
      some .finalized) (now : Instant) :
    let l := (new panel rule capacity significance scope).run as
    (l.Packages now p.1 p.2.id ↔ ∀ r ∈ l.register.settlements, r.entryId ≠ p.2.id →
        l.IsPromoted r.entryId → r.settlementId ≠ p.1.statementId) ∧
      (¬ l.Packages now p.1 p.2.id →
        l.finalizeSettlement now p.2.id = .error (.duplicateStatement p.1.statementId)) := by
  intro l
  obtain ⟨e, he, hs⟩ := exists_entry_of_mem_anchorings h hp
  have hsealed : e.phase = .finalized := by
    rw [Chain.phase?, he] at hphase
    exact Option.some.inj hphase
  have hpackages := (coherent_of_nodup h).packages_iff_unclaimed he hs hsealed now
  refine ⟨hpackages.1.trans ⟨fun hfree r hr hne _ => hfree r hr hne, ?_⟩, hpackages.2⟩
  intro hfree r hr hne hclaims
  exact hfree r hr hne (isPromoted_of_claims hdirect h hp hr hne hclaims) hclaims

/-- A settlement is proposed from the stem, sealed and recorded; then a statement with its id is
    anchored and sealed. -/
def claimedRun : List Action :=
  let statement := Statement.blank "stmt:1" "lct:a" "lct:b"
  let promoted := "act:bilateral_settlement:x2"
  let anchored := "act:bilateral_settlement:x3"
  [ .ingest .epoch "x1" .bilateralSettlement (.plain (.bilateralSettlement statement)),
    .promoteToRoot .epoch "x2" "fc:bilateral_settlement:x1",
    .voteAndFinalize .epoch promoted "w1" true, .voteAndFinalize .epoch promoted "w2" true,
    .voteAndFinalize .epoch promoted "w3" true, .sealBlock .epoch,
    .finalizeSettlement .epoch promoted,
    .anchor .epoch "x3" statement,
    .voteAndFinalize .epoch anchored "w1" true, .voteAndFinalize .epoch anchored "w2" true,
    .voteAndFinalize .epoch anchored "w3" true, .sealBlock .epoch ]

theorem exists_sealed_claimedRun :
    let l := new Chain.trio .lowestEntryId 10 5 .empty
    ∃ p ∈ l.anchorings claimedRun, p.1.statementId = "stmt:1" ∧
      p.2.id = "act:bilateral_settlement:x3" ∧
      (l.run claimedRun).chain.phase? p.2.id = some .finalized := by
  decide +kernel

/-- The only record of the run is that of the settlement from the stem. -/
theorem records_claimedRun :
    ((new Chain.trio .lowestEntryId 10 5 .empty).run claimedRun).register.settlements.map
      (fun r => (r.entryId, r.settlementId)) = [("act:bilateral_settlement:x2", "stmt:1")] := by
  decide +kernel

/-- The anchored settlement of the run is sealed. -/
theorem packages_claimedRun :
    let l := new Chain.trio .lowestEntryId 10 5 .empty
    let later := l.run claimedRun
    (∀ a ∈ claimedRun, ¬ a.ProposesSettlement) ∧ (l.suffixes claimedRun).Nodup ∧
      ∃ p ∈ l.anchorings claimedRun, later.chain.phase? p.2.id = some .finalized ∧
        (later.Packages .epoch p.1 p.2.id ↔ ∀ r ∈ later.register.settlements, r.entryId ≠ p.2.id →
          later.IsPromoted r.entryId → r.settlementId ≠ p.1.statementId) ∧
        (¬ later.Packages .epoch p.1 p.2.id →
          later.finalizeSettlement .epoch p.2.id =
            .error (.duplicateStatement p.1.statementId)) := by
  have hdirect : ∀ a ∈ claimedRun, ¬ a.ProposesSettlement := by
    simp [claimedRun, Action.ProposesSettlement]
  have h : ((new Chain.trio .lowestEntryId 10 5 .empty).suffixes claimedRun).Nodup := by
    decide +kernel
  obtain ⟨p, hp, -, -, hphase⟩ := exists_sealed_claimedRun
  exact ⟨hdirect, h, p, hp, hphase,
    packages_iff Chain.trio .lowestEntryId 10 5 .empty claimedRun hdirect h p hp hphase .epoch⟩

/-- The anchored settlement is sealed and cannot be recorded: the one from the stem has taken its
    statement id. -/
theorem not_packages_claimedRun :
    let l := new Chain.trio .lowestEntryId 10 5 .empty
    let later := l.run claimedRun
    (∀ a ∈ claimedRun, ¬ a.ProposesSettlement) ∧ (l.suffixes claimedRun).Nodup ∧
      ∃ p ∈ l.anchorings claimedRun, later.chain.phase? p.2.id = some .finalized ∧
        ∀ now, later.finalizeSettlement now p.2.id =
          .error (.duplicateStatement p.1.statementId) := by
  have h : ((new Chain.trio .lowestEntryId 10 5 .empty).suffixes claimedRun).Nodup := by
    decide +kernel
  obtain ⟨p, hp, hstatement, hid, hphase⟩ := exists_sealed_claimedRun
  refine ⟨by simp [claimedRun, Action.ProposesSettlement], h, p, hp, hphase, ?_⟩
  obtain ⟨e, he, hs⟩ := exists_entry_of_mem_anchorings h hp
  rw [Chain.phase?, he, Option.map_some, Option.some.injEq] at hphase
  obtain ⟨r, hr, hfields⟩ := List.map_eq_singleton_iff.1 records_claimedRun
  rw [Prod.mk.injEq] at hfields
  refine finalizeSettlement_of_claimed he hs hphase ?_ ?_
  · intro x hx
    rw [hr, List.mem_singleton] at hx
    rw [hx, hfields.1, hid]
    decide
  · exact ⟨r, by rw [hr]; exact List.mem_singleton_self r, by rw [hfields.2, hstatement]⟩

end WitnessLedger.Ledger
