import WitnessLedger.Proofs.Block.Header
import WitnessLedger.Proofs.Chain.AppendOnly
import WitnessLedger.Proofs.Chain.Integrity
import WitnessLedger.Proofs.Merkle.Binding

/-!
# What the last hash of a chain commits to

The hash of the last block fixes the headers of all blocks, and with the number of entries of a
block also their contents.  Two chains with the same last hash are compared from the end: either
the last blocks agree, and with them the hashes of the blocks before, or two different strings have
been hashed to the same digest.  A chain does not end where another one goes on, because the
string behind the first link is not a header.  The hash commits to nothing else: the same contents
in the same blocks lead to the same hash, whoever voted on them and when.

## Key results

- `Chain.hashed`: the strings that the links of a chain and its trees are computed from
- `Block.agrees_or_collide`: blocks with the same hash agree, unless there is a collision
- `agree_or_collide`: this for all blocks of linked lists with the same last hash
- `commitment_run`: this for the chains of any two runs
- `latestBlockHash_congr`: the contents of the blocks determine the last hash
-/

namespace WitnessLedger

/-- What two blocks have in common when they have the same hash. -/
structure Block.Agrees (b b' : Block) : Prop where
  height_eq : b.height = b'.height
  merkleRoot_eq : b.merkleRoot = b'.merkleRoot
  prevHash_eq : b.prevHash = b'.prevHash
  /-- A root only tells the contents below it if it is known how many there are. -/
  leaves_eq : b.entries.length = b'.entries.length →
    b.entries.map (·.contentHash) = b'.entries.map (·.contentHash)

/-- The strings that are hashed for a block: its header, and the pairs of nodes of its tree. -/
def Block.hashed (b : Block) : List (List UInt8) := b.headerBytes :: Merkle.Tree.hashed b.leaves

/-- Blocks with the same hash agree, or two of the strings that were hashed for them collide. -/
theorem Block.agrees_or_collide {b b' : Block} {before before' : List Block}
    (hb : b.Follows before) (hb' : b'.Follows before') (h : b.hash = b'.hash) :
    b.Agrees b' ∨ Digest.Collide b.hashed b'.hashed := by
  have hheader : b.headerBytes = b'.headerBytes ∨ Digest.Collide b.hashed b'.hashed :=
    Digest.eq_or_collide h (List.mem_cons_self ..) (List.mem_cons_self ..)
  rcases hheader with hheader | hcollide
  · obtain ⟨hheight, hroot, hprev⟩ := headerBytes_inj hheader
    by_cases hlength : b.entries.length = b'.entries.length
    · have hleaves : b.leaves.length = b'.leaves.length := by
        rw [leaves, leaves, List.length_map, List.length_map, hlength]
      have hne : b.leaves ≠ [] := by
        rw [leaves, ne_eq, List.map_eq_nil_iff]
        exact hb.entries_ne_nil
      have hroots : b.recomputedRoot = b'.recomputedRoot := by
        rw [← hb.root_eq, ← hb'.root_eq, hroot]
      rcases Merkle.Tree.leaves_eq_or_collide hleaves hne hroots with heq | hcollide
      · exact .inl ⟨hheight, hroot, hprev, fun _ => heq⟩
      · exact .inr (hcollide.mono (List.subset_cons_self ..) (List.subset_cons_self ..))
    · exact .inl ⟨hheight, hroot, hprev, fun heq => absurd heq hlength⟩
  · exact .inr hcollide

namespace Chain

/-- The string whose digest both links start from. -/
def genesisBytes : List UInt8 := Text.bytes "act:genesis:web4"

/-- The strings that are hashed for the first link and for some blocks. -/
def hashedFor (bs : List Block) : List (List UInt8) := genesisBytes :: bs.flatMap Block.hashed

/-- The strings that are hashed for the links of a chain and for the trees of its blocks. -/
def hashed (c : Chain) : List (List UInt8) := hashedFor c.blocks

theorem genesis_eq : genesis = Digest.sha256 genesisBytes := rfl

/-- The string behind the first link differs from a header in its fifth byte. -/
theorem genesisBytes_ne_headerBytes (b : Block) : genesisBytes ≠ b.headerBytes := by
  intro h
  have hseed : genesisBytes[4]? = some 103 := by decide
  have htag : (Text.bytes Digest.blockTag)[4]? = some 98 := by decide
  have hheader : b.headerBytes[4]? = some 98 := by
    rw [Block.headerBytes, Digest.taggedBytes,
      List.getElem?_append_left (List.getElem?_eq_some_iff.1 htag).1, htag]
  rw [h, hheader] at hseed
  exact absurd hseed (by decide)

theorem hashedFor_concat (bs : List Block) (b : Block) :
    hashedFor (bs ++ [b]) = hashedFor bs ++ b.hashed := by
  simp [hashedFor]

theorem genesisBytes_mem_hashedFor (bs : List Block) : genesisBytes ∈ hashedFor bs :=
  List.mem_cons_self ..

theorem headerBytes_mem_hashedFor (bs : List Block) (b : Block) :
    b.headerBytes ∈ hashedFor (bs ++ [b]) := by
  rw [hashedFor_concat]
  exact List.mem_append_right _ (List.mem_cons_self ..)

/-- Linked blocks with the same last hash agree one by one, or two of the strings that were hashed
    for them collide. -/
theorem agree_or_collide {bs bs' : List Block} (h : Linked bs) (h' : Linked bs')
    (hhead : Block.headHash genesis bs = Block.headHash genesis bs') :
    List.Forall₂ Block.Agrees bs bs' ∨ Digest.Collide (hashedFor bs) (hashedFor bs') := by
  induction h generalizing bs' with
  | nil =>
    cases h' with
    | nil => exact .inl .nil
    | @concat bs' b' hbs' hb' =>
      -- the first link would be the hash of a block
      rw [Block.headHash_nil, Block.headHash_concat, genesis_eq, Block.hash_eq] at hhead
      exact .inr ⟨genesisBytes, genesisBytes_mem_hashedFor _, b'.headerBytes,
        headerBytes_mem_hashedFor bs' b', genesisBytes_ne_headerBytes b', hhead⟩
  | @concat bs b hbs hb ih =>
    cases h' with
    | nil =>
      rw [Block.headHash_nil, Block.headHash_concat, genesis_eq, Block.hash_eq] at hhead
      exact .inr ⟨b.headerBytes, headerBytes_mem_hashedFor bs b, genesisBytes,
        genesisBytes_mem_hashedFor _, (genesisBytes_ne_headerBytes b).symm, hhead⟩
    | @concat bs' b' hbs' hb' =>
      rw [Block.headHash_concat, Block.headHash_concat] at hhead
      rw [hashedFor_concat, hashedFor_concat]
      rcases Block.agrees_or_collide hb hb' hhead with hlast | hcollide
      · -- the last blocks agree, so that those before them have the same last hash
        have hbefore : Block.headHash genesis bs = Block.headHash genesis bs' := by
          rw [← hb.prevHash_eq, hlast.prevHash_eq, hb'.prevHash_eq]
        rcases ih hbs' hbefore with hagree | hcollide
        · exact .inl (List.rel_append hagree (.cons hlast .nil))
        · exact .inr (hcollide.mono (List.subset_append_left ..) (List.subset_append_left ..))
      · exact .inr (hcollide.mono (List.subset_append_right ..) (List.subset_append_right ..))

/-- Linked blocks with the same leaves have the same last hash. -/
theorem headHash_congr {bs bs' : List Block} (h : Linked bs) (h' : Linked bs')
    (hleaves : bs.map (·.leaves) = bs'.map (·.leaves)) :
    Block.headHash genesis bs = Block.headHash genesis bs' := by
  induction h generalizing bs' with
  | nil =>
    rw [List.map_nil, eq_comm, List.map_eq_nil_iff] at hleaves
    rw [hleaves]
  | @concat bs b hbs hb ih =>
    cases h' with
    | nil => simp at hleaves
    | @concat bs' b' hbs' hb' =>
      rw [List.map_append, List.map_append] at hleaves
      obtain ⟨hbefore, hlast⟩ := List.append_inj' hleaves rfl
      have hheight : b.height = b'.height := by
        rw [hb.height_eq, hb'.height_eq]
        simpa using congrArg List.length hbefore
      have hroot : b.merkleRoot = b'.merkleRoot := by
        rw [hb.root_eq, hb'.root_eq, Block.recomputedRoot, Block.recomputedRoot]
        rw [List.map_singleton, List.map_singleton, List.cons.injEq] at hlast
        rw [hlast.1]
      have hprev : b.prevHash = b'.prevHash := by
        rw [hb.prevHash_eq, hb'.prevHash_eq, ih hbs' hbefore]
      rw [Block.headHash_concat, Block.headHash_concat, Block.hash, Block.hash, hheight, hroot,
        hprev]

variable {panel panel' : Panel} {rule rule' : ForkRule} {as as' : List Action}

/-- The leaves of a block are the hashes of the contents that it holds. -/
theorem leaves_run (h : (suffixes (new panel rule) as).Nodup) :
    ∀ b ∈ ((new panel rule).run as).blocks, b.leaves = b.entries.map (·.content.hash) := by
  intro b hb
  refine List.map_congr_left fun m hm => ?_
  have hindex := (of_entry?_eq_some (mirrored_run h b hb m hm)).1
  exact (beq_iff_eq.1 (contentIntact_run as m hindex)).symm

/-- The contents of the blocks of a run determine its last hash. -/
theorem latestBlockHash_congr (h : (suffixes (new panel rule) as).Nodup)
    (h' : (suffixes (new panel' rule') as').Nodup)
    (hcontents : ((new panel rule).run as).blocks.map (·.entries.map (·.content)) =
      ((new panel' rule').run as').blocks.map (·.entries.map (·.content))) :
    latestBlockHash ((new panel rule).run as) = latestBlockHash ((new panel' rule').run as') := by
  have hashes_eq : ∀ bs : List Block,
      (bs.map (·.entries.map (·.content))).map (·.map Content.hash) =
        bs.map (·.entries.map (·.content.hash)) := by
    intro bs
    simp only [List.map_map, Function.comp_def]
  rw [latestBlockHash_eq, latestBlockHash_eq]
  refine headHash_congr (linked_run panel rule as) (linked_run panel' rule' as') ?_
  rw [List.map_congr_left (leaves_run h), List.map_congr_left (leaves_run h'), ← hashes_eq,
    ← hashes_eq, hcontents]

/-- If the chains of any two runs, with any panels, have the same last hash, then they have the
    same height, and at each height blocks with the same height, root and link, and with the same
    contents in the same order if they are equally many; or a string that was hashed for the one
    chain and a different one that was hashed for the other have the same digest. -/
theorem commitment_run (panel panel' : Panel) (rule rule' : ForkRule) (as as' : List Action)
    (h : latestBlockHash ((new panel rule).run as) = latestBlockHash ((new panel' rule').run as')) :
    let c := (new panel rule).run as
    let c' := (new panel' rule').run as'
    (c.height = c'.height ∧ ∀ (height : Nat) (b b' : Block), c.blocks[height]? = some b →
      c'.blocks[height]? = some b' → b.Agrees b') ∨
    Digest.Collide c.hashed c'.hashed := by
  intro c c'
  rw [latestBlockHash_eq, latestBlockHash_eq] at h
  refine (agree_or_collide (linked_run panel rule as) (linked_run panel' rule' as') h).imp_left ?_
  intro hagree
  refine ⟨hagree.length_eq, fun height b b' hb hb' => ?_⟩
  obtain ⟨hlt, rfl⟩ := List.getElem?_eq_some_iff.1 hb
  obtain ⟨hlt', rfl⟩ := List.getElem?_eq_some_iff.1 hb'
  exact hagree.get hlt hlt'

/-- Two witnesses, one of which is enough. -/
def pair : Panel where
  nodes := ["v1", "v2"]
  threshold := .ratio 1 2
  nodes_ne_nil := by decide
  nodup_nodes := by decide
  inRange := by decide +kernel

/-- The first credential of the other run is proposed alone, and two other witnesses accept it. -/
def pairRun : List Action :=
  let now := Instant.epoch
  let first := "act:credential_issuance:x1"
  [ .propose now "x1" .credentialIssuance
      (.plain (.credentialIssuance ⟨"lct:a", "lct:b", "member"⟩)) .root,
    .submitVote now first "v1" true none, .submitVote now first "v2" true none,
    .finalize first, .sealBlock now ]

/-- Both runs seal one credential with the same content, with votes of different witnesses. -/
theorem commitment_pairRun :
    let c := (new trio .lowestEntryId).run credentialRun
    let c' := (new pair .lowestEntryId).run pairRun
    c.latestBlockHash = c'.latestBlockHash ∧
      ((c.height = c'.height ∧ ∀ (height : Nat) (b b' : Block), c.blocks[height]? = some b →
        c'.blocks[height]? = some b' → b.Agrees b') ∨
      Digest.Collide c.hashed c'.hashed) := by
  intro c c'
  have hcontents : c.blocks.map (·.entries.map (·.content)) =
      c'.blocks.map (·.entries.map (·.content)) := by
    decide +kernel
  have h : c.latestBlockHash = c'.latestBlockHash :=
    latestBlockHash_congr (by decide) (by decide) hcontents
  exact ⟨h, commitment_run trio pair .lowestEntryId .lowestEntryId credentialRun pairRun h⟩

end Chain

end WitnessLedger
