import WitnessLedger.Proofs.Chain.Blocks
import WitnessLedger.Proofs.Chain.Standing

/-!
# Chains only grow

Whatever is done to a chain, its blocks stay in front of the new ones, and its entries stay in the
index with their content and their links, where votes are only added at the end and phases only
move forward.  An entry is held twice once it is sealed, in the index and in its block.  The copies
stay the same because both are final: nothing happens to a sealed entry any more, and to no block.

## Key results

- `extends_run`: each state of a run keeps what was there before
- `mirrored_run`: the entries of the blocks are those of the index
- `appendOnly_run`: both of this, for all that was ever proposed
-/

namespace WitnessLedger.Chain

/-- What is there before and after, where a chain only grows. -/
structure Extends (c c' : Chain) : Prop where
  /-- The blocks stay, in front of the new ones. -/
  blocks : c.blocks <+: c'.blocks
  /-- An entry stays under its id and makes progress. -/
  entries : ∀ id e, c.entry? id = some e → ∃ e', c'.entry? id = some e' ∧ e.Progress e'

/-- Whether the blocks hold the entries of the index as they are. -/
def Mirrored (c : Chain) : Prop := ∀ b ∈ c.blocks, ∀ m ∈ b.entries, c.entry? m.id = some m

variable {panel : Panel} {rule : ForkRule} {as bs : List Action}

/-- Each state of a run keeps what was there before. -/
theorem extends_run (h : (suffixes (new panel rule) (as ++ bs)).Nodup) :
    ((new panel rule).run as).Extends ((new panel rule).run (as ++ bs)) where
  blocks := by
    rw [run_append]
    exact prefix_blocks_run _ bs
  entries _ _ he := progress_run h he

/-- The entries of the blocks are those of the index. -/
theorem mirrored_run (h : (suffixes (new panel rule) as).Nodup) :
    ((new panel rule).run as).Mirrored := by
  intro b hb m hm
  exact ((traced_run panel rule as h).consistent.members b hb m hm).1

/-- In every run of a new chain in which no suffix is taken twice, at any moment of it: what was
    proposed so far is in the index under its id; whatever follows, the blocks stay in front of the
    new ones, each entry stays with its content, its links and its cost, its votes are only added
    to and its phase only moves forward, and nothing happens to it once it is sealed or rejected;
    and the entries in the blocks are those of the index, then and later. -/
theorem appendOnly_run (panel : Panel) (rule : ForkRule) (as bs : List Action)
    (h : (suffixes (new panel rule) (as ++ bs)).Nodup) :
    let c := (new panel rule).run as
    let c' := (new panel rule).run (as ++ bs)
    (∀ x ∈ proposals (new panel rule) as, ∃ e, c.entry? x.id = some e ∧ x.Progress e) ∧
      c.Extends c' ∧ c.Mirrored ∧ c'.Mirrored := by
  intro c c'
  have hsofar := nodup_of_suffixes_append h
  refine ⟨fun x hx => ?_, extends_run h, mirrored_run hsofar, mirrored_run h⟩
  exact (traced_run panel rule as hsofar).exists_entry hx

/-- After seven actions of the run the first credential is accepted.  One more vote on it is late
    but counts, then it is sealed and the other one rejected, and the last two votes are refused. -/
theorem appendOnly_credentialRun :
    let first := "act:credential_issuance:x1"
    let second := "act:credential_issuance:x2"
    let before := credentialRun.take 7
    let after := [.submitVote .epoch first "w3" false none, .reject second, .sealBlock .epoch,
      .submitVote .epoch first "w3" true none, .submitVote .epoch second "w3" true none]
    let c := (new trio .lowestEntryId).run before
    let c' := (new trio .lowestEntryId).run (before ++ after)
    (suffixes (new trio .lowestEntryId) (before ++ after)).Nodup ∧
      (∀ x ∈ proposals (new trio .lowestEntryId) before,
        ∃ e, c.entry? x.id = some e ∧ x.Progress e) ∧
      c.Extends c' ∧ c.Mirrored ∧ c'.Mirrored := by
  intro first second before after c c'
  have h : (suffixes (new trio .lowestEntryId) (before ++ after)).Nodup := by decide
  exact ⟨h, appendOnly_run trio .lowestEntryId before after h⟩

end WitnessLedger.Chain
