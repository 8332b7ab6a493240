import WitnessLedger.Proofs.Chain.Index
import WitnessLedger.Proofs.Ledger.Action

/-!
# Settings that routing does not see

Two ledgers that differ only in the capacity of the compost and in the cost from which an entry is
significant go through the same run side by side.  New content is scored before it has a cost, so
that it is never significant; and what the compost forgets is neither scored nor looked up again.
All that the capacity leaves a trace in is the link of a new entry, which says how full the compost
is.  Up to that link the two runs answer the same and leave the same.

## Key results

- `Score.of_compost`: the score of new content does not depend on the cost that is significant
- `Tiers.Alike.ingest`, `Tiers.Alike.promoteToRoot`: alike tiers answer alike and stay alike
- `Ledger.Alike.act`: any operation keeps ledgers alike
- `Ledger.neutral_run`: what two ledgers with different settings answer and hold after a run
-/

namespace WitnessLedger

/-- An entry without its link, which the digest of zeros stands for. -/
def Entry.unlinked (e : Entry) : Entry := { e with prevHash := Digest.zero }

/-- The score of new content does not depend on the cost that is significant. -/
theorem Score.of_compost (significance significance' : Nat) (scope : SortedSet) (novelty : Novelty)
    (kind : EntryKind) (content : Content) :
    Score.of significance scope novelty kind content Level.compost.cost =
      Score.of significance' scope novelty kind content Level.compost.cost := by
  have hcost : ∀ n, ¬ n < Level.compost.cost := Nat.not_lt_zero
  simp only [Score.of, hcost, if_false]

namespace Tiers

/-- Whether two tiers are the same but for the capacity and the fill of the compost, the cost that
    is significant, and the links of entries. -/
structure Alike (t t' : Tiers) : Prop where
  scope : t.scope = t'.scope
  stem : t.stem.map Entry.unlinked = t'.stem.map Entry.unlinked
  leaf : t.leaf.map Entry.unlinked = t'.leaf.map Entry.unlinked
  novelty : t.novelty = t'.novelty
  promotions : t.promotions = t'.promotions

variable {t t' : Tiers}

theorem alike_new (capacity capacity' significance significance' : Nat) (scope : SortedSet) :
    Alike (new capacity significance scope) (new capacity' significance' scope) :=
  ⟨rfl, rfl, rfl, rfl, rfl⟩

/-- Entries that differ in their links are placed alike. -/
theorem Alike.place (h : Alike t t') (now : Instant) {e e' : Entry} (score : Score)
    (he : e.unlinked = e'.unlinked) : Alike (t.place now e score) (t'.place now e' score) := by
  have hid : e.id = e'.id := show e.unlinked.id = e'.unlinked.id by rw [he]
  have hstep : promotionTo e score now = promotionTo e' score now := by
    rw [promotionTo, promotionTo, hid]
  unfold Tiers.place
  split
  · refine ⟨h.scope, ?_, h.leaf, h.novelty, by rw [h.promotions, hstep]⟩
    rw [List.map_append, List.map_append, h.stem, List.map_singleton, List.map_singleton, he]
  · refine ⟨h.scope, h.stem, ?_, h.novelty, by rw [h.promotions, hstep]⟩
    rw [List.map_append, List.map_append, h.leaf, List.map_singleton, List.map_singleton, he]
  · exact h

/-- Alike tiers take content in with the same answer, but for the link, and stay alike. -/
theorem Alike.ingest (h : Alike t t') (now : Readings) (suffix : String) (kind : EntryKind)
    (content : Content) :
    (t.ingest now suffix kind content).map (·.1.unlinked) =
        (t'.ingest now suffix kind content).map (·.1.unlinked) ∧
      Alike (Run.stateAfter t (t.ingest now suffix kind content))
        (Run.stateAfter t' (t'.ingest now suffix kind content)) := by
  have hscore : Score.of t.significance t.scope t.novelty kind content Level.compost.cost =
      Score.of t'.significance t'.scope t'.novelty kind content Level.compost.cost := by
    rw [h.scope, h.novelty]
    exact Score.of_compost ..
  unfold Tiers.ingest
  cases content.admit kind with
  | error err => exact ⟨rfl, h⟩
  | ok _ =>
    rw [hscore]
    generalize Score.of t'.significance t'.scope t'.novelty kind content Level.compost.cost = score
    -- the fill of the compost is in the link of the draft and nowhere else
    have he : (atLevel (t.draft now.entry suffix kind content) score.level).unlinked =
        (atLevel (t'.draft now.entry suffix kind content) score.level).unlinked := rfl
    have hplaced := h.place now.record score he
    refine ⟨congrArg Except.ok he, hplaced.scope, hplaced.stem, hplaced.leaf, ?_,
      hplaced.promotions⟩
    show t.novelty.insert kind content.subtype = t'.novelty.insert kind content.subtype
    rw [h.novelty]

/-- The entry of the stem with an id is the same in alike tiers, but for the link. -/
theorem Alike.find?_stem (h : Alike t t') (id : String) :
    (t.stem.find? (·.id == id)).map Entry.unlinked =
      (t'.stem.find? (·.id == id)).map Entry.unlinked := by
  have hids : ∀ es : List Entry, ∀ e ∈ es, e.unlinked.id = e.id := fun _ _ _ => rfl
  rw [← Entry.find?_map (hids t.stem), ← Entry.find?_map (hids t'.stem), h.stem]

/-- Alike tiers propose the same entry to a chain, and stay alike. -/
theorem Alike.promoteToRoot (h : Alike t t') (c : Chain) (now : Readings) (suffix id : String) :
    (∃ err, t.promoteToRoot c now suffix id = .error err ∧
      t'.promoteToRoot c now suffix id = .error err) ∨
    ∃ root u u' c', t.promoteToRoot c now suffix id = .ok (root, u, c') ∧
      t'.promoteToRoot c now suffix id = .ok (root, u', c') ∧ Alike u u' := by
  have hfound := h.find?_stem id
  unfold Tiers.promoteToRoot
  cases hstem : t.stem.find? (·.id == id) with
  | none =>
    rw [hstem, Option.map_none, eq_comm, Option.map_eq_none_iff] at hfound
    rw [hfound]
    exact .inr ⟨none, t, t', c, rfl, rfl, h⟩
  | some e =>
    rw [hstem, Option.map_some, eq_comm, Option.map_eq_some_iff] at hfound
    obtain ⟨e', hstem', he⟩ := hfound
    have hkind : e'.kind = e.kind := show e'.unlinked.kind = e.unlinked.kind by rw [he]
    have hcontent : e'.content = e.content :=
      show e'.unlinked.content = e.unlinked.content by rw [he]
    simp only [hstem', hkind, hcontent]
    cases c.propose now.entry suffix e.kind e.content .root with
    | error err => exact .inl ⟨err, rfl, rfl⟩
    | ok r =>
      refine .inr ⟨some r.1, _, _, r.2, rfl, rfl, h.scope, h.stem, h.leaf, h.novelty, ?_⟩
      rw [h.promotions]

end Tiers

namespace Ledger

/-- Whether two ledgers are the same but for tiers that are alike. -/
structure Alike (l l' : Ledger) : Prop where
  chain : l.chain = l'.chain
  register : l.register = l'.register
  tiers : l.tiers.Alike l'.tiers

variable {l l' : Ledger}

/-- What is proposed from the stem of alike ledgers, and what they are after it. -/
theorem Alike.promoteToRoot (h : Alike l l') (now : Readings) (suffix id : String) :
    (l.promoteToRoot now suffix id).map (·.1) = (l'.promoteToRoot now suffix id).map (·.1) ∧
      Alike (Run.stateAfter l (l.promoteToRoot now suffix id))
        (Run.stateAfter l' (l'.promoteToRoot now suffix id)) := by
  unfold Ledger.promoteToRoot
  rw [h.chain]
  rcases h.tiers.promoteToRoot l'.chain now suffix id with
    ⟨err, heq, heq'⟩ | ⟨root, u, u', c, heq, heq', halike⟩
  · rw [heq, heq']
    exact ⟨rfl, h⟩
  · rw [heq, heq']
    exact ⟨rfl, rfl, h.register, halike⟩

/-- What alike ledgers take content in with, and what they are after it. -/
theorem Alike.ingest (h : Alike l l') (now : Readings) (suffix : String) (kind : EntryKind)
    (content : Content) :
    (l.ingest now suffix kind content).map (·.1.unlinked) =
        (l'.ingest now suffix kind content).map (·.1.unlinked) ∧
      Alike (Run.stateAfter l (l.ingest now suffix kind content))
        (Run.stateAfter l' (l'.ingest now suffix kind content)) := by
  obtain ⟨hanswer, halike⟩ := h.tiers.ingest now suffix kind content
  unfold Ledger.ingest
  revert hanswer halike
  cases l.tiers.ingest now suffix kind content <;>
    cases l'.tiers.ingest now suffix kind content <;> intro hanswer halike
  · exact ⟨hanswer, h⟩
  · cases hanswer
  · cases hanswer
  · exact ⟨hanswer, h.chain, h.register, halike⟩

/-- Whether an operation goes through the tiers. -/
def Action.IsTiered : Action → Prop
  | .ingest .. | .promoteToRoot .. | .resetNovelty => True
  | _ => False

/-- An operation that does not go through the tiers neither sees nor changes them. -/
theorem act_withTiers (l : Ledger) (t : Tiers) {a : Action} (ha : ¬a.IsTiered) :
    act { l with tiers := t } a = { l.act a with tiers := t } := by
  cases a with
  | propose now suffix kind content level =>
    simp only [act, Ledger.propose]
    cases l.chain.propose now suffix kind content level <;> rfl
  | submitVote now entry witness accept reason =>
    simp only [act, Ledger.submitVote]
    cases l.chain.submitVote now entry witness accept reason <;> rfl
  | voteAndFinalize now entry witness accept =>
    simp only [act, Ledger.voteAndFinalize]
    cases l.chain.voteAndFinalize now entry witness accept <;> rfl
  | finalize entry =>
    simp only [act, Ledger.finalize]
    cases l.chain.finalize entry <;> rfl
  | reject entry =>
    simp only [act, Ledger.reject]
    cases l.chain.reject entry <;> rfl
  | sealBlock now => rfl
  | recordSettlement transfer => rfl
  | ingest | promoteToRoot | resetNovelty => exact absurd trivial ha
  | anchor now suffix s =>
    simp only [act, Ledger.anchor]
    cases l.register.anchor l.chain now suffix s <;> rfl
  | finalizeSettlement now entry =>
    simp only [act, Ledger.finalizeSettlement]
    cases l.register.finalizeSettlement l.chain now entry <;> rfl
  | anchorConservation now proofSuffix entrySuffix balances expected =>
    simp only [act, Ledger.anchorConservation]
    cases l.register.anchorConservation l.chain now proofSuffix entrySuffix balances expected <;>
      rfl
  | anchorDischarge now adpSuffix entrySuffix grantId discharged remaining evidenceDigest =>
    simp only [act, Ledger.anchorDischarge]
    cases l.register.anchorDischarge l.chain now adpSuffix entrySuffix grantId discharged
      remaining evidenceDigest <;> rfl
  | markConserved settlement =>
    simp only [act, Ledger.markConserved]
    cases l.register.markConserved settlement <;> rfl
  | attachProof settlement proofId =>
    simp only [act, Ledger.attachProof]
    cases l.register.attachProof settlement proofId <;> rfl

/-- Any operation keeps ledgers alike. -/
theorem Alike.act (h : Alike l l') (a : Action) : Alike (l.act a) (l'.act a) := by
  by_cases ha : a.IsTiered
  · cases a with
    | ingest now suffix kind content => exact (h.ingest now suffix kind content).2
    | promoteToRoot now suffix id => exact (h.promoteToRoot now suffix id).2
    | resetNovelty =>
      exact ⟨h.chain, h.register, h.tiers.scope, h.tiers.stem, h.tiers.leaf, rfl,
        h.tiers.promotions⟩
    | _ => exact ha.elim
  · have hl : l' = { l with tiers := l'.tiers } := by
      rw [h.chain, h.register]
    have hact : l.act a = { l.act a with tiers := l.tiers } := act_withTiers l l.tiers ha
    have hact' : l'.act a = { l.act a with tiers := l'.tiers } := by
      rw [← act_withTiers l l'.tiers ha, ← hl]
    rw [hact', hact]
    exact ⟨rfl, rfl, h.tiers⟩

theorem Alike.run (h : Alike l l') (as : List Action) : Alike (l.run as) (l'.run as) := by
  induction as using List.reverseRecOn with
  | nil => exact h
  | append_singleton as a ih =>
    rw [run_concat, run_concat]
    exact ih.act a

/-- Two ledgers that start with empty tiers, the same scope, and the same chain and register in any
    state go through the same run of operations.  The capacities of their composts and the costs
    that are significant for them are arbitrary.  After any such run, which may be any part of a
    longer one, the next content is taken in or refused with the same answer up to the link of its
    entry, and the same entry of the stem is proposed to the chain, if any.  The stem and the leaf
    level hold the same entries up to their links; the log, what has been seen, the chain and the
    register are the same. -/
theorem neutral_run (chain : Chain) (register : Register) (scope : SortedSet)
    (capacity capacity' significance significance' : Nat) (as : List Action) :
    let l := run ⟨chain, .new capacity significance scope, register⟩ as
    let l' := run ⟨chain, .new capacity' significance' scope, register⟩ as
    (∀ now suffix kind content, (l.ingest now suffix kind content).map (·.1.unlinked) =
      (l'.ingest now suffix kind content).map (·.1.unlinked)) ∧
    (∀ now suffix id, (l.promoteToRoot now suffix id).map (·.1) =
      (l'.promoteToRoot now suffix id).map (·.1)) ∧
    l.tiers.stem.map Entry.unlinked = l'.tiers.stem.map Entry.unlinked ∧
    l.tiers.leaf.map Entry.unlinked = l'.tiers.leaf.map Entry.unlinked ∧
    l.tiers.promotions = l'.tiers.promotions ∧ l.tiers.novelty = l'.tiers.novelty ∧
    l.chain = l'.chain ∧ l.register = l'.register := by
  intro l l'
  have hnew : Alike ⟨chain, .new capacity significance scope, register⟩
      ⟨chain, .new capacity' significance' scope, register⟩ :=
    ⟨rfl, rfl, Tiers.alike_new ..⟩
  have h : Alike l l' := hnew.run as
  exact ⟨fun now suffix kind content => (h.ingest now suffix kind content).1,
    fun now suffix id => (h.promoteToRoot now suffix id).1, h.tiers.stem, h.tiers.leaf,
    h.tiers.promotions, h.tiers.novelty, h.chain, h.register⟩

end Ledger

end WitnessLedger
