import WitnessLedger.Chain.Voting
import WitnessLedger.Chain.Sealing

/-!
# What can happen to an entry

An entry of the chain is voted on, accepted, rejected or sealed, each under a guard; `Entry.Step`
lists these steps.  Whatever an entry goes through, its content and its links stay as they are,
votes are only added at the end, the phase only moves forward, and a sealed or rejected entry does
not change at all (`Entry.Progress`).

## Key results

- `Phase.Reaches`: the order of the phases, of which `Phase.canAdvanceTo` is one step
- `Entry.Step.progress`: each step is progress
- `Entry.Progress.trans`: progress adds up
-/

namespace WitnessLedger

namespace Phase

/-- Whether a phase is another or comes after it: each phase up to `finalized` comes after those
    that are fewer steps from the start, and `rejected` after the open ones. -/
def Reaches (p q : Phase) : Prop :=
  p = q ∨ (p.rank < q.rank ∧ (q = .rejected → p.isOpen = true))

instance (p q : Phase) : Decidable (p.Reaches q) := inferInstanceAs (Decidable (_ ∨ _))

theorem Reaches.refl (p : Phase) : p.Reaches p := .inl rfl

theorem Reaches.trans {p q r : Phase} (hpq : p.Reaches q) (hqr : q.Reaches r) : p.Reaches r := by
  cases p <;> cases q <;> cases r <;> revert hpq hqr <;> decide

theorem reaches_of_canAdvanceTo {p q : Phase} (h : p.canAdvanceTo q = true) : p.Reaches q := by
  cases p <;> cases q <;> revert h <;> decide

theorem isTerminal_of_canAdvanceTo {p q : Phase} (h : p.canAdvanceTo q = true) :
    p.isTerminal = false := by
  cases p <;> cases q <;> revert h <;> decide

theorem isTerminal_of_isOpen {p : Phase} (h : p.isOpen = true) : p.isTerminal = false := by
  cases p <;> revert h <;> decide

/-- An open phase may be followed by both of its ends. -/
theorem canAdvanceTo_of_isOpen {p q : Phase} (h : p.isOpen = true)
    (hq : q = .accepted ∨ q = .rejected) : p.canAdvanceTo q = true := by
  rcases hq with rfl | rfl <;> cases p <;> revert h <;> decide

/-- What comes after an accepted or sealed phase is accepted or sealed. -/
theorem Reaches.accepted_or_finalized {p q : Phase} (h : p.Reaches q)
    (hp : p = .accepted ∨ p = .finalized) : q = .accepted ∨ q = .finalized := by
  rcases hp with rfl | rfl <;> cases q <;> revert h <;> decide

end Phase

namespace Entry

theorem advanced_eq (e : Entry) (next : Phase) :
    e.advanced next =
      { e with phase := if e.phase.canAdvanceTo next then next else e.phase } := by
  simp only [advanced, advance?]
  split <;> rfl

theorem advanced_of_canAdvanceTo {e : Entry} {next : Phase}
    (h : e.phase.canAdvanceTo next = true) : e.advanced next = { e with phase := next } := by
  rw [advanced_eq, if_pos h]

theorem withVote_eq (e : Entry) (v : Vote) :
    e.withVote v =
      { e with votes := e.votes ++ [v]
               phase := if e.phase = .proposed then .voting else e.phase } := by
  simp only [withVote, advanced_eq]
  cases e.phase <;> rfl

theorem withVote_phase (e : Entry) (v : Vote) :
    (e.withVote v).phase = if e.phase = .proposed then .voting else e.phase := by
  rw [withVote_eq]

@[simp] theorem withVote_votes (e : Entry) (v : Vote) : (e.withVote v).votes = e.votes ++ [v] := by
  rw [withVote_eq]

theorem sealEntry_eq (tree : Merkle.Tree) (height index : Nat) {e : Entry}
    (h : e.phase = .accepted) :
    Chain.sealEntry tree height index e =
      { e with proof := (tree.proveIndex index).toOption, blockHeight := some height
               phase := .finalized } := by
  simp only [Chain.sealEntry, advanced_eq, h]
  rfl

@[simp] theorem advanced_id (e : Entry) (next : Phase) : (e.advanced next).id = e.id := by
  rw [advanced_eq]

@[simp] theorem withVote_id (e : Entry) (v : Vote) : (e.withVote v).id = e.id := by
  rw [withVote_eq]

@[simp] theorem sealEntry_id (tree : Merkle.Tree) (height index : Nat) (e : Entry) :
    (Chain.sealEntry tree height index e).id = e.id := by
  simp only [Chain.sealEntry, advanced_id]

@[simp] theorem sealEntry_contentHash (tree : Merkle.Tree) (height index : Nat) (e : Entry) :
    (Chain.sealEntry tree height index e).contentHash = e.contentHash := by
  simp only [Chain.sealEntry, advanced_eq]

@[simp] theorem sealEntry_cost (tree : Merkle.Tree) (height index : Nat) (e : Entry) :
    (Chain.sealEntry tree height index e).cost = e.cost := by
  simp only [Chain.sealEntry, advanced_eq]

@[simp] theorem sealEntry_votes (tree : Merkle.Tree) (height index : Nat) (e : Entry) :
    (Chain.sealEntry tree height index e).votes = e.votes := by
  simp only [Chain.sealEntry, advanced_eq]

@[simp] theorem sealEntry_proof (tree : Merkle.Tree) (height index : Nat) (e : Entry) :
    (Chain.sealEntry tree height index e).proof = (tree.proveIndex index).toOption := by
  simp only [Chain.sealEntry, advanced_eq]

/-- An open entry that is accepted or rejected changes its phase and nothing else. -/
theorem advanced_of_isOpen {e : Entry} {next : Phase} (h : e.phase.isOpen = true)
    (hnext : next = .accepted ∨ next = .rejected) : e.advanced next = { e with phase := next } :=
  advanced_of_canAdvanceTo (Phase.canAdvanceTo_of_isOpen h hnext)

/-- What one operation can make of an entry that is there already. -/
inductive Step (p : Panel) (e : Entry) : Entry → Prop
  | kept : Step p e e
  | voted (now : Instant) (witness : String) (accept : Bool) (reason : Option String)
      (hmem : p.contains witness = true) (hnew : e.hasVoteFrom witness = false)
      (hlive : e.phase.isTerminal = false) :
      Step p e (e.withVote (Vote.cast witness e.id accept reason now))
  | accepted (hopen : e.phase.isOpen = true)
      (hquorum : p.isQuorum e.requiredWitnesses e.accepts = true) :
      Step p e (e.advanced .accepted)
  | rejected (hopen : e.phase.isOpen = true)
      (hlost : p.isQuorum e.requiredWitnesses (e.accepts + (p.size - e.votes.length)) = false) :
      Step p e (e.advanced .rejected)
  | sealed (tree : Merkle.Tree) (height index : Nat) (haccepted : e.phase = .accepted) :
      Step p e (Chain.sealEntry tree height index e)

/-- What an entry has in common with any later state of it. -/
structure Progress (e e' : Entry) : Prop where
  /-- Only the votes, the phase and the place in a block can differ. -/
  core : e' = { e with votes := e'.votes, proof := e'.proof, blockHeight := e'.blockHeight
                       phase := e'.phase }
  /-- Votes are only added at the end. -/
  votes : e.votes <+: e'.votes
  /-- The phase only moves forward. -/
  phase : e.phase.Reaches e'.phase
  /-- Nothing happens to a sealed or rejected entry. -/
  frozen : e.phase.isTerminal = true → e' = e

namespace Progress

variable {e e' e'' : Entry}

theorem refl (e : Entry) : Progress e e := ⟨rfl, List.prefix_refl _, .refl _, fun _ => rfl⟩

theorem trans (h : Progress e e') (h' : Progress e' e'') : Progress e e'' where
  core := by rw [h'.core, h.core]
  votes := h.votes.trans h'.votes
  phase := h.phase.trans h'.phase
  frozen ht := by
    have heq := h.frozen ht
    subst heq
    exact h'.frozen ht

/-- A step to a phase that may follow is progress, also when the entry gets its place in a
    block. -/
theorem of_canAdvanceTo {next : Phase} (h : e.phase.canAdvanceTo next = true)
    (proof : Option Merkle.Proof) (blockHeight : Option Nat) :
    Progress e { e with proof, blockHeight, phase := next } where
  core := rfl
  votes := List.prefix_refl _
  phase := Phase.reaches_of_canAdvanceTo h
  frozen ht := by rw [Phase.isTerminal_of_canAdvanceTo h] at ht; exact absurd ht (by decide)

theorem id_eq (h : Progress e e') : e'.id = e.id := by rw [h.core]

theorem kind_eq (h : Progress e e') : e'.kind = e.kind := by rw [h.core]

theorem content_eq (h : Progress e e') : e'.content = e.content := by rw [h.core]

theorem contentHash_eq (h : Progress e e') : e'.contentHash = e.contentHash := by rw [h.core]

end Progress

/-- Each step is progress. -/
theorem Step.progress {p : Panel} {e e' : Entry} (h : Step p e e') : Progress e e' := by
  cases h with
  | kept => exact .refl e
  | voted now witness accept reason hmem hnew hlive =>
    rw [withVote_eq]
    refine ⟨rfl, List.prefix_append _ _, ?_, fun ht => by simp [hlive] at ht⟩
    show e.phase.Reaches (if e.phase = .proposed then .voting else e.phase)
    cases e.phase <;> decide
  | accepted hopen hquorum =>
    rw [advanced_of_isOpen hopen (.inl rfl)]
    exact .of_canAdvanceTo (Phase.canAdvanceTo_of_isOpen hopen (.inl rfl)) _ _
  | rejected hopen hlost =>
    rw [advanced_of_isOpen hopen (.inr rfl)]
    exact .of_canAdvanceTo (Phase.canAdvanceTo_of_isOpen hopen (.inr rfl)) _ _
  | sealed tree height index haccepted =>
    have hnext : e.phase.canAdvanceTo .finalized = true := by rw [haccepted]; rfl
    rw [sealEntry_eq tree height index haccepted]
    exact .of_canAdvanceTo hnext _ _

end Entry

end WitnessLedger
