import WitnessLedger.Proofs.Chain.Acceptance
import WitnessLedger.Proofs.Chain.Blocks
import WitnessLedger.Proofs.Chain.Standing
import WitnessLedger.Proofs.Chain.Votes

/-!
# Integrity of a chain

The reports on a chain never give a false alarm.  The links between blocks hold, each root is that
of the entries below it, and what the blocks count is what the index holds as sealed.  The report
on an entry follows from its phase alone: a sealed entry has a proof that leads to the root of its
block, the content that was hashed, and its quorum.

## Key results

- `sealed_perm`: the blocks hold the sealed entries of the index, each once
- `isIncluded_of_sealedAt?`: the proof of a sealed entry leads to the root of its block
- `contentIntact_run`: the content of an entry keeps the hash that it was proposed with
- `intact_run`: the reports on a run of a new chain are clean and exact
-/

namespace WitnessLedger.Chain

variable {c : Chain}

/-! ## Sealed entries -/

/-- A sealed entry of the index stands in a block. -/
theorem Consistent.exists_sealedAt? (hc : c.Consistent) {e : Entry} (he : e ∈ c.entries)
    (hphase : e.phase = .finalized) : ∃ height place, c.sealedAt? height place = some e := by
  have hfound : c.entry? e.id = some e := (entry?_eq_some_iff hc.distinct).2 ⟨he, rfl⟩
  have hsealed : e.id ∈ c.sealedIds :=
    (hc.mem_sealed e.id).2 (phase?_eq_some_iff.2 ⟨e, hfound, hphase⟩)
  obtain ⟨height, place, m, hm, hid⟩ := mem_sealedIds.1 hsealed
  -- what stands there is found under the same id
  have hmember := (hc.sealed_eq hm).1
  rw [hid, hfound, Option.some.injEq] at hmember
  exact ⟨height, place, hmember ▸ hm⟩

/-- The blocks hold the sealed entries of the index, each once. -/
theorem Consistent.sealed_perm (hc : c.Consistent) :
    (c.blocks.flatMap (·.entries)).Perm (c.entries.filter (·.phase == .finalized)) := by
  have hblocks : (c.blocks.flatMap (·.entries)).Nodup := by
    refine List.Nodup.of_map (·.id) ?_
    rw [List.map_flatMap]
    exact hc.sealed_nodup
  have hindex : (c.entries.filter (·.phase == .finalized)).Nodup :=
    (List.Nodup.of_map _ hc.distinct).filter _
  rw [List.perm_ext_iff_of_nodup hblocks hindex]
  intro m
  rw [List.mem_flatMap, List.mem_filter, beq_iff_eq]
  constructor
  · rintro ⟨b, hb, hm⟩
    obtain ⟨hfound, hphase, -⟩ := hc.members b hb m hm
    exact ⟨(of_entry?_eq_some hfound).1, hphase⟩
  · rintro ⟨hm, hphase⟩
    obtain ⟨height, place, hat⟩ := hc.exists_sealedAt? hm hphase
    obtain ⟨b, hb, hplace⟩ := sealedAt?_eq_some_iff.1 hat
    exact ⟨b, List.mem_of_getElem? hb, List.mem_of_getElem? hplace⟩

theorem Consistent.block?_eq (hc : c.Consistent) {height : Nat} {b : Block}
    (hb : c.blocks[height]? = some b) : c.block? height = some b := by
  rw [block?, hb, Option.filter_some, if_pos]
  exact beq_iff_eq.2 (hc.heights height b hb)

/-- The proof of a sealed entry leads from its content hash to the root of its block. -/
theorem isIncluded_of_sealedAt? (hc : c.Consistent) (hlinked : Linked c.blocks)
    {height place : Nat} {m : Entry} (h : c.sealedAt? height place = some m) :
    c.isIncluded m = true := by
  obtain ⟨b, hb, hm⟩ := sealedAt?_eq_some_iff.1 h
  have hfollows := hlinked.follows hb
  have hleaf : b.leaves[place]? = some m.contentHash := by
    rw [Block.leaves, List.getElem?_map, hm, Option.map_some]
  obtain ⟨p, hproof, hnamed, hright⟩ := Merkle.Tree.verifyAgainst_proveIndex hleaf
  have hstored : m.proof = some p := by
    rw [hfollows.proof_eq place m hm, hproof]
    rfl
  have hblock : m.blockHeight.bind c.block? = some b := by
    rw [(hc.sealed_eq h).2]
    exact hc.block?_eq hb
  have hroot : b.merkleRoot = (Merkle.Tree.build b.leaves).root := hfollows.root_eq
  simp only [isIncluded, hstored, hblock, hroot, hright, hnamed, beq_self_eq_true, Bool.and_self]

/-! ## Reports -/

/-- What the reports on a chain say of it when they are clean and exact. -/
structure Intact (c : Chain) : Prop where
  valid : c.proof.valid = true
  brokenAt_eq : c.proof.brokenAt = none
  merkleRootsValid : c.proof.merkleRootsValid = true
  ensureValid : c.proof.ensureValid = .ok ()
  entries_eq : c.proof.entries = c.entries.countP (·.phase == .finalized)
  totalCost_eq :
    c.proof.totalCost = Number.total (·.cost) (c.entries.filter (·.phase == .finalized))
  verified_iff : ∀ id, (c.verifyEntry id).verified = true ↔ c.phase? id = some .finalized
  finalized : ∀ id, c.phase? id = some .finalized →
    (c.verifyEntry id).merkleValid = true ∧ (c.verifyEntry id).contentHashValid = true ∧
      (c.verifyEntry id).requiredWitnesses ≤ (c.verifyEntry id).witnesses
  notFinalized : ∀ id p, c.phase? id = some p → p ≠ .finalized →
    (c.verifyEntry id).reason = some .notFinalized
  unknown : ∀ id, c.entry? id = none → (c.verifyEntry id).reason = some .entryNotFound

/-- The blocks count the entries that the index holds as sealed. -/
theorem entries_proof (hc : c.Consistent) :
    c.proof.entries = c.entries.countP (·.phase == .finalized) := by
  show Number.total (·.entries.length) c.blocks = _
  rw [← Number.length_flatMap, hc.sealed_perm.length_eq, List.countP_eq_length_filter]

/-- The blocks have cost what the sealed entries cost. -/
theorem totalCost_proof (hc : c.Consistent) (hlinked : Linked c.blocks) :
    c.proof.totalCost = Number.total (·.cost) (c.entries.filter (·.phase == .finalized)) := by
  have hcosts : ∀ b ∈ c.blocks, b.totalCost = Number.total (·.cost) b.entries := by
    intro b hb
    obtain ⟨before, hfollows⟩ := hlinked.follows_of_mem hb
    exact hfollows.cost_eq
  calc Number.total (·.totalCost) c.blocks
      = Number.total (fun b => Number.total (·.cost) b.entries) c.blocks :=
        Number.total_congr hcosts
    _ = Number.total (·.cost) (c.blocks.flatMap (·.entries)) :=
        (Number.total_flatMap ..).symm
    _ = Number.total (·.cost) (c.entries.filter (·.phase == .finalized)) :=
        Number.total_eq_of_perm _ hc.sealed_perm

theorem brokenAt_proof (hlinked : Linked c.blocks) : c.proof.brokenAt = none :=
  firstBroken?_of_linked hlinked

theorem valid_proof (hlinked : Linked c.blocks) : c.proof.valid = true := by
  show c.proof.brokenAt.isNone = true
  rw [brokenAt_proof hlinked, Option.isNone_none]

theorem merkleRootsValid_proof (hlinked : Linked c.blocks) :
    c.proof.merkleRootsValid = true := by
  refine List.all_eq_true.2 fun b hb => ?_
  obtain ⟨before, hfollows⟩ := hlinked.follows_of_mem hb
  exact beq_iff_eq.2 hfollows.root_eq.symm

theorem ensureValid_proof (hlinked : Linked c.blocks) : c.proof.ensureValid = .ok () := by
  simp only [ChainProof.ensureValid, brokenAt_proof hlinked, valid_proof hlinked,
    merkleRootsValid_proof hlinked]
  rfl

/-- An entry that is not sealed fails for this and no other reason. -/
theorem failure?_of_ne {e : Entry} (h : e.phase ≠ .finalized) :
    c.failure? e = some .notFinalized := by
  rw [failure?, if_pos (bne_iff_ne.2 h)]

/-- Nothing fails for a sealed entry with its proof and its votes. -/
theorem failure?_of_finalized {e : Entry} (hphase : e.phase = .finalized)
    (hincluded : c.isIncluded e = true) (hvotes : e.requiredWitnesses ≤ e.accepts) :
    c.failure? e = none := by
  rw [failure?, if_neg (by simp [hphase]), if_neg (by simp [hincluded]),
    if_neg (Nat.not_lt.2 hvotes)]

variable {panel : Panel} {rule : ForkRule} {as : List Action}

/-- The content of an entry keeps the hash that it was proposed with. -/
theorem contentIntact_run (as : List Action) :
    ∀ e ∈ ((new panel rule).run as).entries, e.contentIntact = true := by
  refine forall_entries (fun id kind level content prevHash now => ?_) (fun e e' hs he => ?_) as
  · exact beq_self_eq_true _
  · rw [Entry.contentIntact, hs.progress.content_eq, hs.progress.contentHash_eq]
    exact he

/-- After every run of a new chain in which no suffix is taken twice, the report on the chain finds
    no broken link and no wrong root, and counts what is sealed and what it cost.  The report on an
    entry verifies exactly the sealed ones, with their proof, their content and their votes in
    order, and says of all others whether they are not sealed or not known. -/
theorem intact_run (panel : Panel) (rule : ForkRule) (as : List Action)
    (h : (suffixes (new panel rule) as).Nodup) : ((new panel rule).run as).Intact := by
  have hc := (traced_run panel rule as h).consistent
  have hlinked := linked_run panel rule as
  -- what a sealed entry has to show
  have hshown : ∀ e ∈ ((new panel rule).run as).entries, e.phase = .finalized →
      ((new panel rule).run as).isIncluded e = true ∧ e.contentIntact = true ∧
        e.requiredWitnesses ≤ e.accepts := by
    intro e he hphase
    obtain ⟨height, place, hat⟩ := hc.exists_sealedAt? he hphase
    exact ⟨isIncluded_of_sealedAt? hc hlinked hat, contentIntact_run as e he,
      (sound_run h e he).requiredWitnesses_le (.inr hphase)⟩
  constructor
  case valid => exact valid_proof hlinked
  case brokenAt_eq => exact brokenAt_proof hlinked
  case merkleRootsValid => exact merkleRootsValid_proof hlinked
  case ensureValid => exact ensureValid_proof hlinked
  case entries_eq => exact entries_proof hc
  case totalCost_eq => exact totalCost_proof hc hlinked
  case verified_iff =>
    intro id
    rw [verifyEntry, phase?]
    cases he : entry? ((new panel rule).run as) id with
    | none =>
      -- the report on an unknown id says that it is not verified
      refine ⟨fun h => ?_, fun h => ?_⟩ <;> cases h
    | some e =>
      rw [Option.map_some, Option.some.injEq]
      show (failure? _ e).isNone = true ↔ _
      by_cases hphase : e.phase = .finalized
      · obtain ⟨hincluded, -, hvotes⟩ := hshown e (of_entry?_eq_some he).1 hphase
        simp [failure?_of_finalized hphase hincluded hvotes, hphase]
      · simp [failure?_of_ne hphase, hphase]
  case finalized =>
    intro id hphase
    obtain ⟨e, he, hphase⟩ := phase?_eq_some_iff.1 hphase
    obtain ⟨hincluded, hcontent, hvotes⟩ := hshown e (of_entry?_eq_some he).1 hphase
    rw [verifyEntry, he]
    refine ⟨?_, hcontent, hvotes⟩
    show (e.phase == .finalized && isIncluded _ e) = true
    rw [hincluded, hphase]
    rfl
  case notFinalized =>
    intro id p hphase hne
    obtain ⟨e, he, rfl⟩ := phase?_eq_some_iff.1 hphase
    rw [verifyEntry, he]
    exact failure?_of_ne hne
  case unknown =>
    intro id he
    rw [verifyEntry, he]
    rfl

/-- One credential of the run is sealed, and the other one is rejected. -/
theorem intact_credentialRun :
    (suffixes (new trio .lowestEntryId) credentialRun).Nodup ∧
      ((new trio .lowestEntryId).run credentialRun).Intact :=
  have h : (suffixes (new trio .lowestEntryId) credentialRun).Nodup := by decide
  ⟨h, intact_run trio .lowestEntryId credentialRun h⟩

end WitnessLedger.Chain
