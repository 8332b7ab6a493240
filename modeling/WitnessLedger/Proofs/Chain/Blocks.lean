import WitnessLedger.Chain.Verification
import WitnessLedger.Proofs.Chain.Reachable
import WitnessLedger.Proofs.Merkle.Inclusion

/-!
# Blocks of a run

Blocks are only added at the end, and each says of itself what its place and its entries make of
it: its height is the number of blocks before it, it links to the last of these, its root and its
cost are those of its entries, and each of them has its proof in the tree over all of them.  This
does not depend on the index, and holds of every run.

## Key results

- `Block.Follows`: what a block says of itself
- `Effect.blocks_eq`: an action adds one block or none
- `linked_run`: each block of a run follows those before it
- `prefix_blocks_run`: the blocks of a run stay, in front of those that come later
- `firstBroken?_of_linked`: no link of such blocks is broken
-/

namespace WitnessLedger

/-- The hash that a block behind others links to: the hash of the last of them, or a digest before
    all. -/
def Block.headHash (before : Digest) (bs : List Block) : Digest :=
  (bs.getLast?.map (·.hash)).getD before

theorem Block.headHash_nil (before : Digest) : headHash before [] = before := rfl

/-- Behind a first block, that block takes the place of what was before it. -/
theorem Block.headHash_cons (before : Digest) (b : Block) (bs : List Block) :
    headHash before (b :: bs) = headHash b.hash bs := by
  rw [headHash, headHash, List.getLast?_cons]
  cases bs.getLast? <;> rfl

theorem Block.headHash_concat (before : Digest) (bs : List Block) (b : Block) :
    headHash before (bs ++ [b]) = b.hash := by
  simp [headHash]

/-- What a block says of itself, where it stands behind others. -/
structure Block.Follows (b : Block) (before : List Block) : Prop where
  height_eq : b.height = before.length
  prevHash_eq : b.prevHash = Block.headHash Chain.genesis before
  entries_ne_nil : b.entries ≠ []
  root_eq : b.merkleRoot = b.recomputedRoot
  cost_eq : b.totalCost = Number.total (·.cost) b.entries
  /-- Each entry has the proof of its place in the tree. -/
  proof_eq : ∀ (i : Nat) (m : Entry), b.entries[i]? = some m →
    m.proof = ((Merkle.Tree.build b.leaves).proveIndex i).toOption

namespace Chain

/-- Blocks that were added one after the other, each behind those before it. -/
inductive Linked : List Block → Prop
  | nil : Linked []
  | concat {bs : List Block} {b : Block} (hbs : Linked bs) (hb : b.Follows bs) : Linked (bs ++ [b])

variable {c c' : Chain} {a : Action}

theorem latestBlockHash_eq (c : Chain) : c.latestBlockHash = Block.headHash genesis c.blocks := by
  rw [latestBlockHash, Block.headHash]
  cases c.blocks.getLast? <;> rfl

/-! ## The next block -/

theorem leaves_blockOf (now : Instant) (members : List Entry) :
    (c.blockOf now members).leaves = members.map (·.contentHash) :=
  map_sealEntries Entry.sealEntry_contentHash _ members

theorem cost_sealEntries (height : Nat) (members : List Entry) :
    Number.total (·.cost) (sealEntries height members) = Number.total (·.cost) members := by
  calc Number.total (·.cost) (sealEntries height members)
      = Number.total id ((sealEntries height members).map (·.cost)) :=
        (Number.total_map id Entry.cost _).symm
    _ = Number.total id (members.map (·.cost)) := by rw [map_sealEntries Entry.sealEntry_cost]
    _ = Number.total (·.cost) members := Number.total_map id Entry.cost members

/-- The block that seals entries follows the blocks of the chain. -/
theorem follows_blockOf (now : Instant) {members : List Entry} (h : members ≠ []) :
    (c.blockOf now members).Follows c.blocks where
  height_eq := rfl
  prevHash_eq := c.latestBlockHash_eq
  entries_ne_nil := by
    show members.mapIdx _ ≠ []
    simpa using h
  root_eq := by
    rw [Block.recomputedRoot, leaves_blockOf]
    rfl
  cost_eq := (cost_sealEntries c.height members).symm
  proof_eq i m hm := by
    rw [leaves_blockOf]
    have hm : (sealEntries c.height members)[i]? = some m := hm
    simp only [sealEntries, List.getElem?_mapIdx, Option.map_eq_some_iff] at hm
    obtain ⟨e, -, rfl⟩ := hm
    exact Entry.sealEntry_proof ..

/-- An action adds the block of the entries that can be sealed, or none. -/
theorem Effect.blocks_eq (h : Effect c a c') :
    c'.blocks = c.blocks ∨
      ∃ now, c.sealable ≠ [] ∧ c'.blocks = c.blocks ++ [c.blockOf now c.sealable] := by
  cases h with
  | sealed hsome => exact .inr ⟨_, hsome, rfl⟩
  | settled => rw [recordSettlement_eq]; exact .inl rfl
  | _ => exact .inl rfl

theorem Linked.act (h : Linked c.blocks) (a : Action) : Linked (c.act a).blocks := by
  rcases (act_effect c a).blocks_eq with heq | ⟨now, hsome, heq⟩ <;> rw [heq]
  · exact h
  · exact h.concat (follows_blockOf now hsome)

/-- Each block of a run follows those before it. -/
theorem linked_run (panel : Panel) (rule : ForkRule) (as : List Action) :
    Linked ((new panel rule).run as).blocks := by
  induction as using List.reverseRecOn with
  | nil => exact .nil
  | append_singleton as a ih =>
    rw [run_concat]
    exact ih.act a

/-- The blocks of a chain stay, in front of those that a run adds. -/
theorem prefix_blocks_run (c : Chain) (as : List Action) : c.blocks <+: (c.run as).blocks := by
  induction as using List.reverseRecOn with
  | nil => exact List.prefix_refl _
  | append_singleton as a ih =>
    rw [run_concat]
    refine ih.trans ?_
    rcases (act_effect (c.run as) a).blocks_eq with heq | ⟨now, -, heq⟩
    · exact heq ▸ List.prefix_refl _
    · exact heq ▸ List.prefix_append _ _

/-! ## Blocks that are linked -/

/-- A block of a linked list follows those that stand before it. -/
theorem Linked.follows {bs : List Block} (h : Linked bs) {i : Nat} {b : Block}
    (hb : bs[i]? = some b) : b.Follows (bs.take i) := by
  induction h with
  | nil => cases hb
  | @concat bs last hbs hlast ih =>
    rcases Nat.lt_or_ge i bs.length with hi | hi
    · rw [List.getElem?_append_left hi] at hb
      rw [List.take_append_of_le_length (Nat.le_of_lt hi)]
      exact ih hb
    · -- the last block stands behind all others
      have hlt := (List.getElem?_eq_some_iff.1 hb).1
      rw [List.length_append, List.length_singleton] at hlt
      obtain rfl : i = bs.length := by omega
      rw [List.getElem?_concat_length, Option.some.injEq] at hb
      rwa [← hb, List.take_left]

theorem Linked.follows_of_mem {bs : List Block} (h : Linked bs) {b : Block} (hb : b ∈ bs) :
    ∃ before, b.Follows before := by
  obtain ⟨i, hi⟩ := List.mem_iff_getElem?.1 hb
  exact ⟨bs.take i, h.follows hi⟩

/-- Looking for a broken link goes on behind blocks that have none. -/
theorem firstBroken?_append {height : Nat} {before : Digest} {bs : List Block}
    (h : firstBroken? height before bs = none) (bs' : List Block) :
    firstBroken? height before (bs ++ bs') =
      firstBroken? (height + bs.length) (Block.headHash before bs) bs' := by
  induction bs generalizing height before with
  | nil => rfl
  | cons b bs ih =>
    rw [firstBroken?] at h
    split at h
    · next hlink =>
      rw [List.cons_append, firstBroken?, if_pos hlink, ih h, List.length_cons,
        Block.headHash_cons, Nat.add_right_comm, Nat.add_assoc]
    · cases h

/-- No link of linked blocks is broken. -/
theorem firstBroken?_of_linked {bs : List Block} (h : Linked bs) :
    firstBroken? 0 genesis bs = none := by
  induction h with
  | nil => rfl
  | concat hbs hb ih =>
    rw [firstBroken?_append ih, firstBroken?, if_pos hb.prevHash_eq, firstBroken?]

end Chain

end WitnessLedger
