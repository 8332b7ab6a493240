import WitnessLedger.Proofs.Chain.Blocks
import WitnessLedger.Proofs.Chain.Votes
import WitnessLedger.Proofs.Document.Entry

/-!
# What a chain keeps can be stored

Everything in a block was put there by an operation, and the operations only write what has a form
as a document: the times are readings of the clock, the scores have been checked against the
interval from zero to one, the costs are those of the levels.  So each block of a run whose clock
stays in the years of four digits can be stored, as far as its numbers have 64 bits.

## Key results

- `Content.isFinite_of_admit`: content that is admitted has a finite score, or none
- `Effect.recorded`, `recorded_run`: what an action and what a run writes has a form as a document
- `Block.Recorded.storable`: so each block of the chain can be stored
-/

namespace WitnessLedger

/-- Content that is admitted has a finite score, or none. -/
theorem Content.isFinite_of_admit {content : Content} {kind : EntryKind}
    (h : content.admit kind = .ok ()) : ∀ x ∈ content.anomalyScore, x.isFinite = true := by
  unfold Content.admit at h
  split at h
  · exact isFinite_of_validate (mapError_eq_ok_iff.1 h)
  · cases h

/-- What the entries of a chain have whose clock stays in the years of four digits. -/
structure Entry.Recorded (e : Entry) : Prop where
  timestamp : e.timestamp.InYears
  votes : ∀ v ∈ e.votes, v.timestamp.InYears
  score : ∀ x ∈ e.content.anomalyScore, x.isFinite = true
  cost_eq : e.cost = e.level.cost
  contentHash_eq : e.contentHash = e.content.hash

/-- What the blocks of such a chain have. -/
structure Block.Recorded (b : Block) : Prop where
  timestamp : b.timestamp.InYears
  entries : ∀ e ∈ b.entries, e.Recorded
  blockHeight_eq : ∀ e ∈ b.entries, e.blockHeight = some b.height

namespace Entry.Recorded

variable {e : Entry}

theorem draft {c : Chain} {now : Instant} {suffix : String} {kind : EntryKind} {content : Content}
    {level : Level} (hnow : now.InYears) (hvalid : content.admit kind = .ok ()) :
    (c.draft now suffix kind content level).Recorded where
  timestamp := hnow
  votes _ hv := absurd hv List.not_mem_nil
  score := Content.isFinite_of_admit hvalid
  cost_eq := rfl
  contentHash_eq := rfl

theorem advanced (h : e.Recorded) (next : Phase) : (e.advanced next).Recorded := by
  rw [advanced_eq]
  exact ⟨h.timestamp, h.votes, h.score, h.cost_eq, h.contentHash_eq⟩

theorem withVote (h : e.Recorded) {v : Vote} (hv : v.timestamp.InYears) :
    (e.withVote v).Recorded := by
  have hvotes : ∀ w ∈ e.votes ++ [v], w.timestamp.InYears := by
    intro w hw
    rcases List.mem_append.1 hw with hw | hw
    · exact h.votes w hw
    · rwa [List.mem_singleton.1 hw]
  rw [withVote_eq]
  exact ⟨h.timestamp, hvotes, h.score, h.cost_eq, h.contentHash_eq⟩

theorem sealEntry (h : e.Recorded) (tree : Merkle.Tree) (height index : Nat) :
    (Chain.sealEntry tree height index e).Recorded := by
  have hplaced : Recorded { e with
      proof := (tree.proveIndex index).toOption, blockHeight := some height } :=
    ⟨h.timestamp, h.votes, h.score, h.cost_eq, h.contentHash_eq⟩
  exact hplaced.advanced .finalized

end Entry.Recorded

namespace Chain

/-- The reading of the clock that an operation is given. -/
def Action.reading? : Action → Option Instant
  | .propose now .. | .submitVote now .. | .sealBlock now => some now
  | .finalize _ | .reject _ | .recordSettlement _ => none

/-- Whether all that a chain holds has been written by a clock that stays in the years of four
    digits. -/
structure Recorded (c : Chain) : Prop where
  entries : ∀ e ∈ c.entries, e.Recorded
  blocks : ∀ b ∈ c.blocks, b.Recorded

variable {c c' : Chain} {a : Action}

theorem recorded_new (panel : Panel) (rule : ForkRule) : (new panel rule).Recorded :=
  ⟨fun _ he => absurd he List.not_mem_nil, fun _ hb => absurd hb List.not_mem_nil⟩

/-- The block of the entries that can be sealed. -/
theorem Recorded.blockOf (h : c.Recorded) {now : Instant} (hnow : now.InYears) :
    (c.blockOf now c.sealable).Recorded where
  timestamp := hnow
  entries e he := by
    -- what is sealed is an entry of the index with its place
    obtain ⟨i, x, hx, rfl⟩ := mem_sealEntries.1 he
    exact (h.entries x (of_mem_sealable (List.mem_of_getElem? hx)).1).sealEntry _ _ _
  blockHeight_eq e he := by
    obtain ⟨i, x, hx, rfl⟩ := mem_sealEntries.1 he
    simp only [sealEntry, Entry.advanced_eq]
    rfl

/-- What an action writes has a form as a document. -/
theorem Effect.recorded (h : Effect c a c') (ha : ∀ t ∈ a.reading?, t.InYears) (hc : c.Recorded) :
    c'.Recorded := by
  -- what is done to the entry with one id is done to a recorded entry
  have hupdate : ∀ (id : String) (f : Entry → Entry), (∀ e : Entry, e.Recorded → (f e).Recorded) →
      ∀ e ∈ (c.update id f).entries, e.Recorded := by
    intro id f hf e he
    obtain ⟨x, hx, rfl⟩ := List.mem_map.1 he
    split
    · exact hf x (hc.entries x hx)
    · exact hc.entries x hx
  cases h with
  | idle => exact hc
  | proposed hvalid =>
    refine ⟨fun e he => ?_, hc.blocks⟩
    rcases mem_insertEntry he with rfl | he
    · exact .draft (ha _ rfl) hvalid
    · exact hc.entries e he
  | voted => exact ⟨hupdate _ _ fun e he => he.withVote (ha _ rfl), hc.blocks⟩
  | accepted => exact ⟨hupdate _ _ fun e he => he.advanced _, hc.blocks⟩
  | rejected => exact ⟨hupdate _ _ fun e he => he.advanced _, hc.blocks⟩
  | sealed =>
    have hblock := hc.blockOf (ha _ rfl)
    constructor
    · intro e he
      obtain ⟨x, hx, rfl⟩ := List.mem_map.1 he
      -- an entry of the index stays or is stored over by a sealed one
      rcases Entry.overwritten_eq_or_mem (c.blockOf _ c.sealable).entries x with heq | hstored
      · rw [heq]
        exact hc.entries x hx
      · exact hblock.entries _ hstored
    · intro b hb
      rcases List.mem_append.1 hb with hb | hb
      · exact hc.blocks b hb
      · rwa [List.mem_singleton.1 hb]
  | cleared => exact ⟨hc.entries, hc.blocks⟩
  | settled =>
    rw [recordSettlement_eq]
    exact ⟨hc.entries, hc.blocks⟩

/-- What any run writes has a form as a document. -/
theorem recorded_run {c : Chain} (hc : c.Recorded) (as : List Action)
    (has : ∀ a ∈ as, ∀ t ∈ a.reading?, t.InYears) : (c.run as).Recorded := by
  induction as using List.reverseRecOn with
  | nil => exact hc
  | append_singleton as a ih =>
    have hbefore := ih fun x hx => has x (List.mem_append_left _ hx)
    have hlast := has a (List.mem_append_right _ (List.mem_singleton_self a))
    rw [run_concat]
    exact (act_effect _ a).recorded hlast hbefore

end Chain

/-- Whether the numbers that a block and the places in it are counted with have 64 bits. -/
structure Block.InWords (b : Block) : Prop where
  height : b.height < UInt64.size
  totalCost : b.totalCost < UInt64.size
  places : b.entries.length ≤ UInt64.size

/-- A proof in a block names the place of its entry. -/
theorem Block.Follows.leafIndex_lt {b : Block} {before : List Block} (h : b.Follows before)
    {e : Entry} (he : e ∈ b.entries) : ∀ p ∈ e.proof, p.leafIndex < b.entries.length := by
  intro p hp
  obtain ⟨i, hi⟩ := List.mem_iff_getElem?.1 he
  have hleaf : b.leaves[i]? = some e.contentHash := by
    rw [leaves, List.getElem?_map, hi]
    rfl
  obtain ⟨path, hproof, -⟩ := Merkle.Tree.proveIndex_build hleaf
  have hplace := h.proof_eq i e hi
  rw [hproof, Option.mem_def.1 hp] at hplace
  cases hplace
  exact (List.getElem?_eq_some_iff.1 hi).1

/-- A block of a chain can be stored, if its numbers have 64 bits. -/
theorem Block.Recorded.storable {b : Block} (h : b.Recorded) {before : List Block}
    (hfollows : b.Follows before) (hwords : b.InWords) : b.Storable where
  height := hwords.height
  timestamp := h.timestamp
  totalCost := hwords.totalCost
  entries e he := by
    have hrecorded := h.entries e he
    have hplace : ∀ p ∈ e.proof, p.leafIndex < UInt64.size := fun p hp =>
      Nat.lt_of_lt_of_le (hfollows.leafIndex_lt he p hp) hwords.places
    have hheight : ∀ n ∈ e.blockHeight, n < UInt64.size := by
      intro n hn
      rw [h.blockHeight_eq e he, Option.mem_some] at hn
      exact hn ▸ hwords.height
    have hcost : e.cost < UInt64.size := by
      rw [hrecorded.cost_eq]
      cases e.level <;> decide
    exact ⟨hrecorded.timestamp, hrecorded.votes, hrecorded.score, hplace, hheight, hcost⟩

end WitnessLedger
