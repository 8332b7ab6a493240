import WitnessLedger.Proofs.Chain.Integrity
import WitnessLedger.Proofs.Ledger.Chain

/-!
# Records of settlements

The register keeps copies of what the chain says of a sealed settlement, and looks them up by the
id of the statement and by that of the entry.  The copies stay right because a sealed entry does
not change any more, and both ids stay unique because a record is only added where neither of them
has one, whatever else has been proposed to the chain.

## Key results

- `Register.Revision.exists_isOf`, `Register.Revision.nodup_settlementIds`,
  `Register.Revision.nodup_entryIds`: what an operation makes of the records keeps them right
- `SettlementRecord.IsOf.isProven`: the proof in a record leads to the root of its block
- `Coherent.act`: every operation keeps the records in agreement with the chain
- `coherent_run`: the records agree with the chain at any moment of a run, and stay as they are
-/

namespace WitnessLedger

/-! ## What a record says -/

/-- Whether a record is that of an entry of a chain, which is sealed and carries the statement of
    the record. -/
structure SettlementRecord.IsOf (r : SettlementRecord) (c : Chain) (e : Entry) : Prop where
  entry_eq : c.entry? r.entryId = some e
  phase_eq : e.phase = .finalized
  payload_eq : e.content.payload = .bilateralSettlement r.statement
  statementId_eq : r.statement.statementId = r.settlementId
  blockHeight_eq : r.blockHeight = e.blockHeight
  merkleProof_eq : r.merkleProof = e.proof

/-- Whether the proof in a record leads from the content of an entry to the root of the block at the
    height in the record. -/
def SettlementRecord.IsProven (r : SettlementRecord) (c : Chain) (e : Entry) : Prop :=
  ∃ height b p, r.blockHeight = some height ∧ c.block? height = some b ∧
    r.merkleProof = some p ∧ p.leafHash = e.contentHash ∧ p.verifyAgainst b.merkleRoot = true

/-- Whether the records of settlements agree with the chain, and both of their ids are unique. -/
structure Ledger.Coherent (l : Ledger) : Prop where
  records : ∀ r ∈ l.register.settlements, ∃ e, r.IsOf l.chain e ∧ r.IsProven l.chain e
  settlementIds_nodup : (l.register.settlements.map (·.settlementId)).Nodup
  entryIds_nodup : (l.register.settlements.map (·.entryId)).Nodup

theorem Content.payload_eq_of_statement? {content : Content} {s : Statement}
    (h : content.statement? = some s) : content.payload = .bilateralSettlement s := by
  unfold statement? at h
  split at h
  · next heq =>
    rw [heq, Option.some.inj h]
  · cases h

namespace Chain

variable {c c' : Chain} {e : Entry}

/-- The proof of an included entry leads to the root of the block at its height. -/
theorem exists_of_isIncluded (h : c.isIncluded e = true) :
    ∃ height b p, e.blockHeight = some height ∧ c.block? height = some b ∧ e.proof = some p ∧
      p.leafHash = e.contentHash ∧ p.verifyAgainst b.merkleRoot = true := by
  unfold isIncluded at h
  split at h
  · next p b hproof hblock =>
    obtain ⟨height, hheight, hb⟩ := Option.bind_eq_some_iff.1 hblock
    simp only [Bool.and_eq_true, beq_iff_eq] at h
    exact ⟨height, b, p, hheight, hb, hproof, h.1, h.2⟩
  · cases h

/-- A sealed entry is included, in a consistent chain whose blocks are linked. -/
theorem Consistent.isIncluded (hc : c.Consistent) (hlinked : Linked c.blocks) {id : String}
    (he : c.entry? id = some e) (hphase : e.phase = .finalized) : c.isIncluded e = true := by
  obtain ⟨height, place, hat⟩ := hc.exists_sealedAt? (of_entry?_eq_some he).1 hphase
  exact isIncluded_of_sealedAt? hc hlinked hat

/-- A sealed or rejected entry stays as it is where the chain only grows. -/
theorem Extends.entry?_eq (h : c.Extends c') {id : String} (he : c.entry? id = some e)
    (hterminal : e.phase.isTerminal = true) : c'.entry? id = some e := by
  obtain ⟨e', he', hprogress⟩ := h.entries id e he
  rw [he', hprogress.frozen hterminal]

end Chain

namespace SettlementRecord

variable {r r' r'' : SettlementRecord} {c c' : Chain} {e : Entry}

theorem IsNoted.refl (r : SettlementRecord) : r.IsNoted r := rfl

theorem IsNoted.trans (h : r.IsNoted r') (h' : r'.IsNoted r'') : r.IsNoted r'' := by
  unfold IsNoted at *
  rw [h', h]

theorem IsNoted.settlementId_eq (h : r.IsNoted r') : r'.settlementId = r.settlementId := by
  rw [h]

theorem IsNoted.entryId_eq (h : r.IsNoted r') : r'.entryId = r.entryId := by rw [h]

/-- What is noted of the check of balances has nothing to do with the chain. -/
theorem IsOf.of_isNoted (h : r.IsOf c e) (hnoted : r.IsNoted r') : r'.IsOf c e := by
  rw [hnoted]
  exact ⟨h.entry_eq, h.phase_eq, h.payload_eq, h.statementId_eq, h.blockHeight_eq,
    h.merkleProof_eq⟩

theorem IsOf.of_extends (h : r.IsOf c e) (hextends : c.Extends c') : r.IsOf c' e :=
  { h with entry_eq := hextends.entry?_eq h.entry_eq (by rw [h.phase_eq]; rfl) }

/-- The proof in a record leads to the root of its block. -/
theorem IsOf.isProven (h : r.IsOf c e) (hc : c.Consistent) (hlinked : Chain.Linked c.blocks) :
    r.IsProven c e := by
  have hincluded := hc.isIncluded hlinked h.entry_eq h.phase_eq
  obtain ⟨height, b, p, hheight, hb, hproof, hleaf, hroot⟩ := Chain.exists_of_isIncluded hincluded
  exact ⟨height, b, p, h.blockHeight_eq.trans hheight, hb, h.merkleProof_eq.trans hproof, hleaf,
    hroot⟩

end SettlementRecord

/-! ## What an operation makes of the records -/

namespace Register

open SettlementRecord (IsNoted)

variable {r : Register} {c : Chain} {settlements : List SettlementRecord}

/-- A change that notes something on a record leaves all records where they are. -/
theorem forall₂_updateFirst {f : SettlementRecord → SettlementRecord} (hf : ∀ x, IsNoted x (f x))
    (id : String) (records : List SettlementRecord) :
    List.Forall₂ IsNoted records (updateFirst id f records) := by
  induction records with
  | nil => exact .nil
  | cons x records ih =>
    unfold updateFirst
    split
    · exact .cons (hf x) (List.forall₂_same.2 fun y _ => .refl y)
    · exact .cons (.refl x) ih

/-- Ids stay unique when a record is added whose id is not found. -/
private theorem nodup_concat {records : List SettlementRecord} {key : SettlementRecord → String}
    (hnodup : (records.map key).Nodup) {x : SettlementRecord}
    (hnone : records.find? (key · == key x) = none) : ((records ++ [x]).map key).Nodup :=
  nodup_map_concat hnodup fun y hy hkey => List.find?_eq_none.1 hnone y hy (beq_iff_eq.2 hkey)

theorem Revision.nodup_settlementIds (h : r.Revision c settlements)
    (hnodup : (r.settlements.map (·.settlementId)).Nodup) :
    (settlements.map (·.settlementId)).Nodup := by
  cases h with
  | kept => exact hnodup
  | added now hnone he hs hphase hfree => exact nodup_concat hnodup hfree
  | noted id hf =>
    rw [map_eq_of_forall₂ (forall₂_updateFirst hf id _) fun _ _ h => h.settlementId_eq]
    exact hnodup

theorem Revision.nodup_entryIds (h : r.Revision c settlements)
    (hnodup : (r.settlements.map (·.entryId)).Nodup) : (settlements.map (·.entryId)).Nodup := by
  cases h with
  | kept => exact hnodup
  | @added id e s now hnone he hs hphase hfree =>
    refine nodup_concat hnodup ?_
    rw [← (Chain.of_entry?_eq_some he).2] at hnone
    exact hnone
  | noted id hf =>
    rw [map_eq_of_forall₂ (forall₂_updateFirst hf id _) fun _ _ h => h.entryId_eq]
    exact hnodup

/-- Each record is one of a sealed entry if those before were. -/
theorem Revision.exists_isOf (h : r.Revision c settlements)
    (hrecords : ∀ x ∈ r.settlements, ∃ e, x.IsOf c e) : ∀ x ∈ settlements, ∃ e, x.IsOf c e := by
  intro x hx
  cases h with
  | kept => exact hrecords x hx
  | @added id e s now hnone he hs hphase hfree =>
    rcases List.mem_append.1 hx with hx | hx
    · exact hrecords x hx
    · rw [List.mem_singleton] at hx
      subst hx
      have hid : e.id = id := (Chain.of_entry?_eq_some he).2
      refine ⟨e, ?_, hphase, Content.payload_eq_of_statement? hs, rfl, rfl, rfl⟩
      show c.entry? e.id = some e
      rwa [hid]
  | noted id hf =>
    obtain ⟨y, hy, hnoted⟩ := exists_of_forall₂ (forall₂_updateFirst hf id _) hx
    obtain ⟨e, he⟩ := hrecords y hy
    exact ⟨e, he.of_isNoted hnoted⟩

/-- No record is lost, and only notes are added to it. -/
theorem Revision.exists_isNoted (h : r.Revision c settlements) :
    ∀ x ∈ r.settlements, ∃ x' ∈ settlements, x.IsNoted x' := by
  intro x hx
  cases h with
  | kept => exact ⟨x, hx, .refl x⟩
  | added => exact ⟨x, List.mem_append_left _ hx, .refl x⟩
  | noted id hf => exact exists_of_forall₂ (forall₂_updateFirst hf id _).flip hx

end Register

namespace Ledger

/-! ## What a run makes of the records -/

section Run

variable {panel : Panel} {rule : ForkRule} {capacity significance : Nat} {scope : SortedSet}
  {as bs : List Action}

/-- The report on a sealed entry verifies it. -/
theorem verified_of_isOf
    (h : ((new panel rule capacity significance scope).suffixes as).Nodup)
    {r : SettlementRecord} {e : Entry} :
    let l := (new panel rule capacity significance scope).run as
    r.IsOf l.chain e → (l.chain.verifyEntry r.entryId).verified = true := by
  intro l hr
  have hconsistent : l.chain.Consistent := (traced_run panel rule _ _ scope as h).consistent
  have hincluded := hconsistent.isIncluded (linked_run as) hr.entry_eq hr.phase_eq
  have hmem := (Chain.of_entry?_eq_some hr.entry_eq).1
  have hchain : l.chain = (Chain.new panel rule).run _ := chain_run _ as
  rw [hchain] at hmem
  have hvotes := (Chain.sound_run h e hmem).requiredWitnesses_le (.inr hr.phase_eq)
  simp only [Chain.verifyEntry, hr.entry_eq,
    Chain.failure?_of_finalized hr.phase_eq hincluded hvotes, Option.isNone_none]

/-- An operation keeps the records right, where the chain only grows and stays consistent. -/
theorem Coherent.act {l : Ledger} {a : Action} (h : l.Coherent)
    (hextends : l.chain.Extends (l.act a).chain) (hconsistent : (l.act a).chain.Consistent)
    (hlinked : Chain.Linked (l.act a).chain.blocks) : (l.act a).Coherent := by
  have hrevision := (act_effect l a).revision
  refine ⟨fun r hr => ?_, hrevision.nodup_settlementIds h.settlementIds_nodup,
    hrevision.nodup_entryIds h.entryIds_nodup⟩
  -- the record is one of an entry before the operation, and the entry stays as it is
  have hbefore : ∀ x ∈ l.register.settlements, ∃ e, x.IsOf l.chain e := by
    intro x hx
    obtain ⟨e, he, -⟩ := h.records x hx
    exact ⟨e, he⟩
  obtain ⟨e, he⟩ := hrevision.exists_isOf hbefore r hr
  have hlater := he.of_extends hextends
  exact ⟨e, hlater, hlater.isProven hconsistent hlinked⟩

/-- The records of a run agree with its chain. -/
theorem coherent_of_nodup
    (h : ((new panel rule capacity significance scope).suffixes as).Nodup) :
    ((new panel rule capacity significance scope).run as).Coherent := by
  induction as using List.reverseRecOn with
  | nil => exact ⟨fun r hr => absurd hr List.not_mem_nil, List.nodup_nil, List.nodup_nil⟩
  | append_singleton as a ih =>
    have hsofar := ih (nodup_suffixes_append h)
    have hconsistent := (traced_run panel rule capacity significance scope _ h).consistent
    have hlinked : Chain.Linked
        ((new panel rule capacity significance scope).run (as ++ [a])).chain.blocks := linked_run _
    have hextends : ((new panel rule capacity significance scope).run as).chain.Extends
        ((new panel rule capacity significance scope).run (as ++ [a])).chain := extends_run h
    rw [run_concat] at hconsistent hlinked hextends ⊢
    exact hsofar.act hextends hconsistent hlinked

/-- No record is lost when a run goes on, and only notes are added to it. -/
theorem exists_isNoted_run {l : Ledger} {r : SettlementRecord} (hr : r ∈ l.register.settlements)
    (as : List Action) : ∃ r' ∈ (l.run as).register.settlements, r.IsNoted r' := by
  induction as using List.reverseRecOn with
  | nil => exact ⟨r, hr, .refl r⟩
  | append_singleton as a ih =>
    obtain ⟨x, hx, hnoted⟩ := ih
    obtain ⟨r', hr', hnoted'⟩ := (act_effect (l.run as) a).revision.exists_isNoted x hx
    rw [run_concat]
    exact ⟨r', hr', hnoted.trans hnoted'⟩

end Run

variable {l : Ledger} {r : SettlementRecord}

/-- The report on a recorded settlement is that on its entry. -/
theorem Coherent.verifySettlement_eq (h : l.Coherent) (hr : r ∈ l.register.settlements) :
    (l.verifySettlement r.settlementId).verified = (l.chain.verifyEntry r.entryId).verified := by
  have hfound : l.register.settlement? r.settlementId = some r :=
    find?_key_eq_some h.settlementIds_nodup hr
  simp only [verifySettlement, Register.verifySettlement, hfound]

/-- A settlement that is recorded is not recorded again. -/
theorem Coherent.finalizeSettlement_eq (h : l.Coherent) (hr : r ∈ l.register.settlements)
    (now : Instant) : l.finalizeSettlement now r.entryId = .ok (some r, l) := by
  have hfound : l.register.settlements.find? (·.entryId == r.entryId) = some r :=
    find?_key_eq_some h.entryIds_nodup hr
  simp only [finalizeSettlement, Register.finalizeSettlement, hfound]
  rfl

/-- In every run of a new ledger in which no suffix is taken twice, at any moment of it: each record
    of a settlement is that of a sealed entry with its statement, has the height and the proof of
    the entry, and the proof leads to the root of the block at that height; and no two records have
    the same settlement or the same entry.  Whatever follows, the report on the settlement verifies
    it, its record is given again and none is added, and it differs from what it was at most in what
    is noted of the check of balances. -/
theorem coherent_run (panel : Panel) (rule : ForkRule) (capacity significance : Nat)
    (scope : SortedSet) (as bs : List Action)
    (h : ((new panel rule capacity significance scope).suffixes (as ++ bs)).Nodup) :
    let l := (new panel rule capacity significance scope).run as
    let later := (new panel rule capacity significance scope).run (as ++ bs)
    l.Coherent ∧ ∀ r ∈ l.register.settlements,
      (later.verifySettlement r.settlementId).verified = true ∧
        ∃ r' ∈ later.register.settlements, r.IsNoted r' ∧
          ∀ now, later.finalizeSettlement now r.entryId = .ok (some r', later) := by
  intro l later
  have hlater : later.Coherent := coherent_of_nodup h
  refine ⟨coherent_of_nodup (nodup_suffixes_append h), fun r hr => ?_⟩
  obtain ⟨r', hr', hnoted⟩ := exists_isNoted_run hr bs
  have hrun : l.run bs = later := (List.foldl_append ..).symm
  rw [hrun] at hr'
  obtain ⟨e, he, -⟩ := hlater.records r' hr'
  refine ⟨?_, r', hr', hnoted, fun now => ?_⟩
  · rw [← hnoted.settlementId_eq, hlater.verifySettlement_eq hr']
    exact verified_of_isOf h he
  · rw [← hnoted.entryId_eq]
    exact hlater.finalizeSettlement_eq hr' now

/-- A statement is anchored, accepted and sealed, and its settlement is recorded. -/
def recordingRun : List Action :=
  let entry := "act:bilateral_settlement:x1"
  [ .anchor .epoch "x1" (Statement.blank "stmt:1" "lct:a" "lct:b"),
    .voteAndFinalize .epoch entry "w1" true, .voteAndFinalize .epoch entry "w2" true,
    .voteAndFinalize .epoch entry "w3" true, .sealBlock .epoch,
    .finalizeSettlement .epoch entry ]

/-- A check of balances is anchored and attached to the settlement, and the statement is proposed a
    second time. -/
def notingRun : List Action :=
  let statement := Payload.bilateralSettlement (Statement.blank "stmt:1" "lct:a" "lct:b")
  [ .anchorConservation .epoch "p1" "x2" .empty .zero, .attachProof "stmt:1" "cons:p1",
    .propose .epoch "x3" .bilateralSettlement (.plain statement) .root ]

/-- One settlement is recorded and then noted on, and the three proposals have different
    suffixes. -/
theorem coherent_recordingRun :
    let l := (new Chain.trio .lowestEntryId 10 5 .empty).run recordingRun
    let later := (new Chain.trio .lowestEntryId 10 5 .empty).run (recordingRun ++ notingRun)
    ((new Chain.trio .lowestEntryId 10 5 .empty).suffixes (recordingRun ++ notingRun)).Nodup ∧
      l.register.settlements.map (·.conservationProofId) = [none] ∧
      later.register.settlements.map (·.conservationProofId) = [some "cons:p1"] ∧
      l.Coherent ∧ ∀ r ∈ l.register.settlements,
        (later.verifySettlement r.settlementId).verified = true ∧
          ∃ r' ∈ later.register.settlements, r.IsNoted r' ∧
            ∀ now, later.finalizeSettlement now r.entryId = .ok (some r', later) :=
  have h : ((new Chain.trio .lowestEntryId 10 5 .empty).suffixes
      (recordingRun ++ notingRun)).Nodup := by decide +kernel
  ⟨h, by decide +kernel, by decide +kernel,
    coherent_run Chain.trio .lowestEntryId 10 5 .empty _ notingRun h⟩

end Ledger

end WitnessLedger
