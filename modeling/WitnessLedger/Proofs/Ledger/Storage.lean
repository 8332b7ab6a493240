import WitnessLedger.Proofs.Chain.Head
import WitnessLedger.Proofs.Chain.Storage
import WitnessLedger.Proofs.Document.Nesting
import WitnessLedger.Proofs.Ledger.Chain

/-!
# A stored ledger read back

The blocks of a ledger and any content with a finite score are read back from the texts of their
documents as they were, with one exception: a decimal that is zero and has a sign, as there is one
for a negative number too small for its places, is read without the sign.  The hashes of blocks,
their Merkle roots and the proofs in them do not depend on it.  The hash of the content does, so
that the entry no longer agrees with the hash of its content.

## Key results

- `Content.reloads`, `Block.Recorded.reloads`: what is read back
- `reloads_run`: this for all contents, and for the blocks of every run
- `not_reload_negativeTransfer`: content that is not read back as it was
-/

namespace WitnessLedger

open Document

/-- What is read back of content, and what of its hash. -/
structure Content.Reloads (c : Content) : Prop where
  /-- It is read back without the signs of its zeros. -/
  reload_eq : reload c = some c.unsigned
  same_iff : c.unsigned = c ↔ ¬ c.HasSignedZero
  /-- Its hash is different then, or two strings collide. -/
  hash_iff : c.unsigned.hash = c.hash ↔ ¬ c.HasSignedZero ∨
    Digest.Collide [textBytes c.unsigned.canonical] [textBytes c.canonical]

/-- What is read back of a block, and of what can be checked on it. -/
structure Block.Reloads (b : Block) : Prop where
  reload_eq : reload b = some b.unsigned
  same_iff : b.unsigned = b ↔ ∀ e ∈ b.entries, ¬ e.content.HasSignedZero
  hash_eq : b.unsigned.hash = b.hash
  root_eq : b.unsigned.recomputedRoot = b.recomputedRoot
  proofs_eq : b.unsigned.entries.map (fun e => e.proof.map Merkle.Proof.verify) =
    b.entries.map fun e => e.proof.map Merkle.Proof.verify
  /-- An entry agrees with the hash of its content before, and afterwards if this has no signed
      zero. -/
  intact : ∀ e ∈ b.entries, e.contentIntact = true ∧
    (e.unsigned.contentIntact = true ↔ ¬ e.content.HasSignedZero ∨
      Digest.Collide [Content.textBytes e.content.unsigned.canonical]
        [Content.textBytes e.content.canonical])

/-- Content with a finite score, or none, is read back without the signs of its zeros. -/
theorem Content.reloads {c : Content} (h : ∀ x ∈ c.anomalyScore, x.isFinite = true) :
    c.Reloads where
  reload_eq := (reloadsAs h).reload_eq (Nat.le_trans c.nesting_le (by decide))
  same_iff := unsigned_eq_self_iff
  hash_iff := by
    -- the hash is that of the canonical text, which shows the signs of zeros
    rw [hash_eq_iff, canonical_unsigned_eq_iff h]

/-- A block of a chain whose clock stays in the years of four digits is read back without the signs
    of the zeros in its contents, if its numbers have 64 bits. -/
theorem Block.Recorded.reloads {b : Block} (h : b.Recorded) {before : List Block}
    (hfollows : b.Follows before) (hwords : b.InWords) : b.Reloads where
  reload_eq :=
    (reloadsAs (h.storable hfollows hwords)).reload_eq (Nat.le_trans b.nesting_le (by decide))
  same_iff := unsigned_eq_self_iff
  hash_eq := rfl
  root_eq := by
    -- the leaves are the stored hashes of the contents
    rw [recomputedRoot, recomputedRoot, leaves, leaves, unsigned, List.map_map]
    rfl
  proofs_eq := by
    rw [unsigned, List.map_map]
    rfl
  intact e he := by
    have hrecorded := h.entries e he
    rw [← (Content.reloads hrecorded.score).hash_iff]
    simp only [Entry.contentIntact, beq_iff_eq, Entry.unsigned, hrecorded.contentHash_eq, true_and]

namespace Ledger

/-- The reading of the clock that an operation is given for what it writes to the chain, or the
    only one that it is given. -/
def Action.reading? : Action → Option Instant
  | .propose now .. | .submitVote now .. | .voteAndFinalize now .. | .sealBlock now
  | .finalizeSettlement now _ => some now
  | .ingest now .. | .promoteToRoot now .. | .anchor now .. | .anchorConservation now ..
  | .anchorDischarge now .. => some now.entry
  | .finalize _ | .reject _ | .recordSettlement _ | .resetNovelty | .markConserved _
  | .attachProof .. => none

/-- The chain is given the clock reading of the ledger, or none. -/
theorem reading?_onChain {l : Ledger} {a : Action} {x : Chain.Action} (hx : x ∈ l.onChain a) :
    x.reading? = none ∨ x.reading? = a.reading? := by
  cases a with
  | voteAndFinalize now entry witness accept =>
    simp only [onChain] at hx
    split at hx
    · simp only [List.mem_cons, List.not_mem_nil, or_false] at hx
      rcases hx with rfl | rfl
      · exact .inr rfl
      · exact .inl rfl
    · cases hx
  | anchor now suffix s =>
    simp only [onChain] at hx
    split at hx
    · rcases List.mem_cons.1 hx with rfl | hx
      · exact .inr rfl
      · -- the transfers are marked as settled without a reading
        obtain ⟨transfer, -, rfl⟩ := List.mem_map.1 hx
        exact .inl rfl
    · rw [List.mem_singleton.1 hx]
      exact .inr rfl
    · cases hx
  | promoteToRoot | anchorConservation | anchorDischarge =>
    simp only [onChain] at hx
    split at hx
    · rw [List.mem_singleton.1 hx]
      exact .inr rfl
    · cases hx
  | propose | submitVote | sealBlock | finalize | reject | recordSettlement =>
    rw [List.mem_singleton.1 hx]
    exact .inr rfl
  | ingest | resetNovelty | finalizeSettlement | markConserved | attachProof => cases hx

theorem inYears_chainRun {l : Ledger} {as : List Action}
    (has : ∀ a ∈ as, ∀ t ∈ a.reading?, t.InYears) :
    ∀ x ∈ l.chainRun as, ∀ t ∈ x.reading?, t.InYears := by
  intro x hx t ht
  obtain ⟨before, a, after, rfl, ha⟩ := Run.mem_chronicle.1 hx
  rcases reading?_onChain ha with hnone | hsame
  · rw [hnone] at ht
    cases ht
  · exact has a (List.mem_append_right _ (List.mem_cons_self ..)) t (hsame ▸ ht)

/-- Whatever a stored ledger holds is read back as it was, apart from the signs of zeros, and these
    are exactly what the reading can lose.  It is so for any content with a finite score, or none,
    and for each block of any run of a new ledger, as long as the clock stays in the years of four
    digits and the numbers of the block have 64 bits.  The hash of the block, its Merkle root and
    what its proofs verify are the same in any case. -/
theorem reloads_run (panel : Panel) (rule : ForkRule) (capacity significance : Nat)
    (scope : SortedSet) (as : List Action) (has : ∀ a ∈ as, ∀ t ∈ a.reading?, t.InYears) :
    let l := new panel rule capacity significance scope
    (∀ c : Content, (∀ x ∈ c.anomalyScore, x.isFinite = true) → c.Reloads) ∧
      ∀ b ∈ (l.run as).chain.blocks, b.InWords → b.Reloads := by
  intro l
  refine ⟨fun c => Content.reloads, fun b hb hwords => ?_⟩
  rw [chain_run] at hb
  have hrecorded := Chain.recorded_run (Chain.recorded_new panel rule) (l.chainRun as)
    (inYears_chainRun has)
  obtain ⟨before, hfollows⟩ := (Chain.linked_run panel rule (l.chainRun as)).follows_of_mem hb
  exact (hrecorded.blocks b hb).reloads hfollows hwords

/-- A transfer of an amount that is negative and too small for the places of a decimal. -/
def negativeTransfer : Content :=
  .plain (.transferCommit ⟨"t1", "soc:a", "soc:b", ⟨true, 0, 28, by decide⟩, none⟩)

/-- The transfer is proposed, accepted and sealed. -/
def transferRun : List Action :=
  let id := "act:transfer_commit:x1"
  [ .propose .epoch "x1" .transferCommit negativeTransfer .root,
    .voteAndFinalize .epoch id "w1" true, .voteAndFinalize .epoch id "w2" true, .sealBlock .epoch]

/-- The block with the transfer is read back, but not as it was. -/
theorem reloads_transferRun :
    (∀ a ∈ transferRun, ∀ t ∈ a.reading?, t.InYears) ∧
      (∀ x ∈ negativeTransfer.anomalyScore, x.isFinite = true) ∧ negativeTransfer.Reloads ∧
      ∃ b ∈ ((new Chain.trio .lowestEntryId 10 5 .empty).run transferRun).chain.blocks,
        b.InWords ∧ b.Reloads ∧ ∃ e ∈ b.entries, e.content.HasSignedZero := by
  have htimes : ∀ a ∈ transferRun, ∀ t ∈ a.reading?, t.InYears := by decide +kernel
  have hscore : ∀ x ∈ negativeTransfer.anomalyScore, x.isFinite = true := fun x hx => by cases hx
  obtain ⟨hcontents, hblocks⟩ :=
    reloads_run Chain.trio .lowestEntryId 10 5 .empty transferRun htimes
  have hlength : ((new Chain.trio .lowestEntryId 10 5 .empty).run transferRun).chain.blocks.length =
      1 := by
    decide +kernel
  have hnumbers : ∀ b ∈ ((new Chain.trio .lowestEntryId 10 5 .empty).run transferRun).chain.blocks,
      b.height < UInt64.size ∧ b.totalCost < UInt64.size ∧ b.entries.length ≤ UInt64.size ∧
        ∃ e ∈ b.entries, e.content.HasSignedZero := by
    decide +kernel
  -- from here on only what has been evaluated counts, not the run
  generalize ((new Chain.trio .lowestEntryId 10 5 .empty).run transferRun).chain.blocks = bs at *
  obtain ⟨b, rfl⟩ := List.length_eq_one_iff.1 hlength
  have hb : b ∈ [b] := List.mem_singleton_self b
  obtain ⟨hheight, hcost, hplaces, hzero⟩ := hnumbers b hb
  have hwords : b.InWords := ⟨hheight, hcost, hplaces⟩
  exact ⟨htimes, hscore, hcontents _ hscore, b, hb, hwords, hblocks b hb hwords, hzero⟩

/-- The amount of the transfer is what a text with an exponent denotes, and the transfer is valid;
    it is read back with another amount and another hash. -/
theorem not_reload_negativeTransfer :
    (Decimal.read? "-0.3e-28").map (fun amount => Content.plain
        (.transferCommit ⟨"t1", "soc:a", "soc:b", amount, none⟩)) = some negativeTransfer ∧
      negativeTransfer.validate = .ok () ∧ negativeTransfer.anomalyScore = none ∧
      ∃ c, reload negativeTransfer = some c ∧ c ≠ negativeTransfer ∧
        c.hash ≠ negativeTransfer.hash := by
  have hamount : (Decimal.read? "-0.3e-28").map (fun amount => Content.plain
      (.transferCommit ⟨"t1", "soc:a", "soc:b", amount, none⟩)) = some negativeTransfer := by
    decide +kernel
  have hvalid : negativeTransfer.validate = .ok () := by decide +kernel
  have hread : ReloadsAs negativeTransfer negativeTransfer.unsigned :=
    Content.reloadsAs fun x hx => by cases hx
  have hreload := hread.reload_eq (Nat.le_trans negativeTransfer.nesting_le (by decide))
  have hne : negativeTransfer.unsigned ≠ negativeTransfer := by decide +kernel
  have hhash : negativeTransfer.unsigned.hash ≠ negativeTransfer.hash := by decide +kernel
  exact ⟨hamount, hvalid, rfl, _, hreload, hne, hhash⟩

end Ledger

end WitnessLedger
