import WitnessLedger.Proofs.Chain.Integrity
import WitnessLedger.Proofs.SortedMap
import Mathlib.Data.List.Perm.Subperm

/-!
# What a block attests

A block keeps, for each witness that accepted one of its members, the signature of the vote on the
first of these members.  Each member has a quorum of its own, and its witnesses are all among those
of the block, so that the block has a quorum for every member at once.

## Key results

- `lookup?_firstSignatures`: the first signature of a witness, member by member
- `firstSignatures_run`: a block of a run has the first signatures of its members
- `Entry.VotedBy.accepts_le`: the block has at least the witnesses of each member
- `attested_run`: what the blocks of every run say of their witnesses and members
-/

namespace WitnessLedger

open SortedMap (find?)

/-! ## The votes on one member -/

namespace Entry

/-- There is no signature of a witness on an entry exactly if none of its votes accepts. -/
theorem find?_acceptSignatures_eq_none_iff {e : Entry} {witness : String} :
    find? witness e.acceptSignatures = none ↔
      ∀ v ∈ e.votes, v.witness = witness → v.accept = false := by
  rw [SortedMap.find?_eq_none_iff, acceptSignatures, List.map_map]
  simp only [List.mem_map, List.mem_filter, Function.comp_apply, not_exists, not_and, and_imp]
  constructor
  · intro h v hv hwitness
    by_contra haccept
    exact h v hv (by simpa using haccept) hwitness
  · intro h v hv haccept hwitness
    rw [h v hv hwitness] at haccept
    cases haccept

variable {p : Panel} {e : Entry}

/-- The witnesses of the signatures on an entry are pairwise distinct. -/
theorem VotedBy.nodup_acceptSignatures (h : e.VotedBy p) :
    (e.acceptSignatures.map Prod.fst).Nodup := by
  rw [acceptSignatures, List.map_map]
  exact h.distinct.sublist (List.filter_sublist.map _)

/-- The signature of a witness on an entry is that of its accepting vote. -/
theorem VotedBy.find?_acceptSignatures_eq_some_iff (h : e.VotedBy p) {witness : String}
    {signature : Digest} : find? witness e.acceptSignatures = some signature ↔
      ∃ v ∈ e.votes, v.witness = witness ∧ v.accept = true ∧ v.signature = signature := by
  rw [SortedMap.find?_eq_some_iff h.nodup_acceptSignatures, acceptSignatures, List.mem_map]
  simp only [List.mem_filter, Prod.mk.injEq]
  constructor
  · rintro ⟨v, ⟨hv, haccept⟩, hwitness, hsignature⟩
    exact ⟨v, hv, hwitness, haccept, hsignature⟩
  · rintro ⟨v, hv, hwitness, haccept, hsignature⟩
    exact ⟨v, ⟨hv, haccept⟩, hwitness, hsignature⟩

/-- Where each accepting vote on an entry is by one of some witnesses, these are no fewer than the
    votes. -/
theorem VotedBy.accepts_le (h : e.VotedBy p) {witnesses : List String}
    (hall : ∀ v ∈ e.votes, v.accept = true → v.witness ∈ witnesses) :
    e.accepts ≤ witnesses.length := by
  have hlength : (e.acceptSignatures.map Prod.fst).length = e.accepts := by
    rw [List.length_map, acceptSignatures, List.length_map, accepts, List.countP_eq_length_filter]
  have hsubset : e.acceptSignatures.map Prod.fst ⊆ witnesses := by
    intro witness hwitness
    simp only [acceptSignatures, List.map_map, List.mem_map, List.mem_filter,
      Function.comp_apply] at hwitness
    obtain ⟨v, ⟨hv, haccept⟩, rfl⟩ := hwitness
    exact hall v hv haccept
  -- the witnesses of different votes differ
  rw [← hlength]
  exact (List.subperm_of_subset h.nodup_acceptSignatures hsubset).length_le

end Entry

namespace Chain

/-! ## The signatures of a block -/

/-- The first signature of a witness is that on the first of the members that it accepted. -/
theorem lookup?_firstSignatures (members : List Entry) (witness : String) :
    (firstSignatures members).lookup? witness =
      members.findSome? fun m => find? witness m.acceptSignatures := by
  rw [firstSignatures, SortedMap.lookup?_foldl_insertNew, SortedMap.find?_flatMap]
  rfl

/-- Sealing changes no vote, so that sealed members have the signatures that they had before. -/
theorem firstSignatures_sealEntries (height : Nat) (members : List Entry) :
    firstSignatures (sealEntries height members) = firstSignatures members := by
  have hsame : (sealEntries height members).map (·.acceptSignatures) =
      members.map (·.acceptSignatures) := by
    apply map_sealEntries
    intro tree height i e
    simp only [Entry.acceptSignatures, Entry.sealEntry_votes]
  rw [firstSignatures, firstSignatures, List.flatMap_def, List.flatMap_def, hsame]

/-- A block of a run has the first signatures of its members. -/
theorem firstSignatures_run (panel : Panel) (rule : ForkRule) (as : List Action) :
    ∀ b ∈ ((new panel rule).run as).blocks, b.signatures = firstSignatures b.entries := by
  induction as using List.reverseRecOn with
  | nil => exact fun b hb => absurd hb List.not_mem_nil
  | append_singleton as a ih =>
    intro b hb
    rw [run_concat] at hb
    rcases (act_effect _ a).blocks_eq with heq | ⟨now, -, heq⟩ <;> rw [heq] at hb
    · exact ih b hb
    · rcases List.mem_append.1 hb with hb | hb
      · exact ih b hb
      · -- the new block has the signatures that its members had before they were sealed
        rw [List.mem_singleton.1 hb]
        exact (firstSignatures_sealEntries _ _).symm

end Chain

/-! ## Attested blocks -/

/-- What a block says of the witnesses of its members and of the members themselves. -/
structure Block.Attested (panel : Panel) (b : Block) : Prop where
  /-- The block names the witnesses that accepted one of the members, each once. -/
  mem_keys_iff : ∀ witness, witness ∈ b.signatures.keys ↔
    ∃ m ∈ b.entries, ∃ v ∈ m.votes, v.witness = witness ∧ v.accept = true
  nodup_keys : b.signatures.keys.Nodup
  keys_subset : b.signatures.keys ⊆ panel.nodes
  /-- It has the signature of the accepting vote on the first member that the witness accepted. -/
  lookup?_eq_some_iff : ∀ witness signature, b.signatures.lookup? witness = some signature ↔
    ∃ before m after, b.entries = before ++ m :: after ∧
      (∃ v ∈ m.votes, v.witness = witness ∧ v.accept = true ∧ v.signature = signature) ∧
      ∀ m' ∈ before, ∀ v ∈ m'.votes, v.witness = witness → v.accept = false
  /-- The witnesses are a quorum for each of the members. -/
  requiredWitnesses_le : ∀ m ∈ b.entries, m.requiredWitnesses ≤ b.signatures.keys.length
  share : panel.threshold.le (.ratio b.signatures.keys.length panel.nodes.length) = true
  totalCost_eq : b.totalCost = Number.total (·.cost) b.entries
  /-- Each member has the proof of its place in the tree over all of them, and the height. -/
  placed : ∀ (i : Nat) (m : Entry), b.entries[i]? = some m →
    (∃ p, (Merkle.Tree.build (b.entries.map (·.contentHash))).proveIndex i = .ok p ∧
      m.proof = some p) ∧ m.blockHeight = some b.height

namespace Block

variable {panel : Panel} {b : Block}

theorem lookup?_eq_some_iff_of_first (hfirst : b.signatures = Chain.firstSignatures b.entries)
    (hvoted : ∀ m ∈ b.entries, m.VotedBy panel) (witness : String) (signature : Digest) :
    b.signatures.lookup? witness = some signature ↔
      ∃ before m after, b.entries = before ++ m :: after ∧
        (∃ v ∈ m.votes, v.witness = witness ∧ v.accept = true ∧ v.signature = signature) ∧
        ∀ m' ∈ before, ∀ v ∈ m'.votes, v.witness = witness → v.accept = false := by
  rw [hfirst, Chain.lookup?_firstSignatures, List.findSome?_eq_some_iff]
  simp only [Entry.find?_acceptSignatures_eq_none_iff]
  -- the votes on the member are in order, so that the signature found there is that of one vote
  refine exists_congr fun before => exists_congr fun m => exists_congr fun after => ?_
  refine and_congr_right fun hsplit => and_congr_left fun _ => ?_
  have hm : m ∈ b.entries := hsplit ▸ List.mem_append_right _ (List.mem_cons_self ..)
  exact (hvoted m hm).find?_acceptSignatures_eq_some_iff

theorem mem_keys_iff_of_first (hfirst : b.signatures = Chain.firstSignatures b.entries)
    (witness : String) : witness ∈ b.signatures.keys ↔
      ∃ m ∈ b.entries, ∃ v ∈ m.votes, v.witness = witness ∧ v.accept = true := by
  rw [SortedMap.mem_keys_iff, hfirst, Chain.lookup?_firstSignatures, List.findSome?_isSome_iff]
  simp only [← Option.ne_none_iff_isSome, ne_eq, Entry.find?_acceptSignatures_eq_none_iff]
  simp only [not_forall, Bool.not_eq_false, exists_prop]

end Block

namespace Chain

variable {panel : Panel} {rule : ForkRule} {as : List Action}

/-- The members of the blocks of a run have their votes in order, and a quorum. -/
theorem sound_of_mem_block (h : (suffixes (new panel rule) as).Nodup) {b : Block}
    (hb : b ∈ ((new panel rule).run as).blocks) {m : Entry} (hm : m ∈ b.entries) :
    m.Sound panel ∧ panel.isQuorum m.requiredWitnesses m.accepts = true := by
  obtain ⟨hfound, hphase, -⟩ := (traced_run panel rule as h).consistent.members b hb m hm
  have hsound := sound_run h m (of_entry?_eq_some hfound).1
  exact ⟨hsound, hsound.quorum (.inr hphase)⟩

/-- In every run of a new chain in which no suffix is taken twice, a block names exactly the
    witnesses that accepted one of its members, each with the signature of its vote on the first of
    these; they are a quorum for each member; and the block has the cost of its members, each of
    which has its proof and its height. -/
theorem attested_run (panel : Panel) (rule : ForkRule) (as : List Action)
    (h : (suffixes (new panel rule) as).Nodup) :
    ∀ b ∈ ((new panel rule).run as).blocks, b.Attested panel := by
  intro b hb
  have hc := (traced_run panel rule as h).consistent
  have hsound := fun m hm => sound_of_mem_block h hb (m := m) hm
  obtain ⟨before, hfollows⟩ := (linked_run panel rule as).follows_of_mem hb
  have hkeys := Block.mem_keys_iff_of_first (firstSignatures_run panel rule as b hb)
  -- the witnesses of the block are a quorum for a member, since all of its own are among them
  have hquorum : ∀ m ∈ b.entries,
      panel.isQuorum m.requiredWitnesses b.signatures.keys.length = true := by
    intro m hm
    refine Panel.isQuorum_mono ?_ (hsound m hm).2
    apply (hsound m hm).1.accepts_le
    exact fun v hv haccept => (hkeys v.witness).2 ⟨m, hm, v, hv, rfl, haccept⟩
  simp only [Panel.isQuorum, Bool.and_eq_true, decide_eq_true_eq] at hquorum
  constructor
  case mem_keys_iff => exact hkeys
  case nodup_keys => exact b.signatures.nodup_keys
  case keys_subset =>
    intro witness hwitness
    obtain ⟨m, hm, v, hv, rfl, -⟩ := (hkeys witness).1 hwitness
    exact (hsound m hm).1.member v hv
  case lookup?_eq_some_iff =>
    exact Block.lookup?_eq_some_iff_of_first (firstSignatures_run panel rule as b hb)
      fun m hm => (hsound m hm).1.toVotedBy
  case requiredWitnesses_le => exact fun m hm => (hquorum m hm).1
  case share =>
    obtain ⟨m, hm⟩ := List.exists_mem_of_ne_nil _ hfollows.entries_ne_nil
    exact (hquorum m hm).2
  case totalCost_eq => exact hfollows.cost_eq
  case placed =>
    intro i m hm
    have hleaf : b.leaves[i]? = some m.contentHash := by
      rw [Block.leaves, List.getElem?_map, hm, Option.map_some]
    obtain ⟨p, hproof, -⟩ := Merkle.Tree.verifyAgainst_proveIndex hleaf
    refine ⟨⟨p, hproof, ?_⟩, (hc.members b hb m (List.mem_of_getElem? hm)).2.2⟩
    rw [hfollows.proof_eq i m hm, hproof]
    rfl

/-- Two credentials are accepted by two witnesses each, one of whom they have in common, and sealed
    in one block. -/
def sharedRun : List Action :=
  let now := Instant.epoch
  let credential := Content.plain (.credentialIssuance ⟨"lct:a", "lct:b", "member"⟩)
  let first := "act:credential_issuance:x1"
  let second := "act:credential_issuance:x2"
  [ .propose now "x1" .credentialIssuance credential .root,
    .propose now "x2" .credentialIssuance credential .root,
    .submitVote now first "w1" false none, .submitVote now first "w2" true none,
    .submitVote now first "w3" true none, .submitVote now second "w2" true none,
    .submitVote now second "w1" true none,
    .finalize first, .finalize second, .sealBlock now ]

/-- The one block of the run names all three witnesses, the second with its vote on the first
    credential. -/
theorem attested_sharedRun :
    let c := new trio .lowestEntryId
    (suffixes c sharedRun).Nodup ∧ (∀ b ∈ (c.run sharedRun).blocks, b.Attested trio) ∧
      (c.run sharedRun).blocks.map (·.signatures.keys) = [["w1", "w2", "w3"]] ∧
      (c.run sharedRun).blocks.map (·.signatures.lookup? "w2") =
        [some (Vote.sign "w2" "act:credential_issuance:x1" true .epoch)] := by
  intro c
  have h : (suffixes c sharedRun).Nodup := by decide
  exact ⟨h, attested_run trio .lowestEntryId sharedRun h, by decide +kernel, by decide +kernel⟩

end Chain

end WitnessLedger
