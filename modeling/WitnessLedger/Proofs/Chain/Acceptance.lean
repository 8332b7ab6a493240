import WitnessLedger.Proofs.Chain.Standing
import WitnessLedger.Proofs.Double.Ratio

/-!
# Safety of acceptance

Votes on an entry come from different members of the panel, and an entry is accepted only with
enough of them.  More votes can only add to those that accept, so that an entry which has once been
accepted has a quorum for ever, whatever is voted or done later.

## Key results

- `Panel.isQuorum_mono`: more accepting witnesses are still a quorum
- `Entry.Step.sound`: each step keeps the votes of an entry in order, and its quorum
- `acceptance_run`: the entries of every run of a new chain have their quorum, now and later
-/

namespace WitnessLedger

/-- A quorum stays one when more witnesses accept. -/
theorem Panel.isQuorum_mono {p : Panel} {required a b : Nat} (hab : a ≤ b)
    (h : p.isQuorum required a = true) : p.isQuorum required b = true := by
  simp only [isQuorum, share, Bool.and_eq_true, decide_eq_true_eq] at h ⊢
  have hsize : 0 < p.size := List.length_pos_iff.2 p.nodes_ne_nil
  exact ⟨Nat.le_trans h.1 hab, Double.le_trans h.2 (Double.ratio_mono hsize hab)⟩

namespace Entry

/-- Whether the votes on an entry are signed votes on it by different members of a panel. -/
structure VotedBy (p : Panel) (e : Entry) : Prop where
  distinct : (e.votes.map (·.witness)).Nodup
  member : ∀ v ∈ e.votes, v.witness ∈ p.nodes
  named : ∀ v ∈ e.votes, v.entry = e.id
  signed : ∀ v ∈ e.votes, v.signature = Vote.sign v.witness v.entry v.accept v.timestamp

/-- Whether, besides, an entry that counts as accepted has a quorum. -/
structure Sound (p : Panel) (e : Entry) : Prop extends VotedBy p e where
  quorum : e.phase = .accepted ∨ e.phase = .finalized →
    p.isQuorum e.requiredWitnesses e.accepts = true

variable {p : Panel} {e e' : Entry}

/-- An entry that counts as accepted has the accepting votes that its kind asks for. -/
theorem Sound.requiredWitnesses_le (h : e.Sound p) (hphase : e.phase = .accepted ∨
    e.phase = .finalized) : e.requiredWitnesses ≤ e.accepts := by
  have hquorum := h.quorum hphase
  simp only [Panel.isQuorum, Bool.and_eq_true, decide_eq_true_eq] at hquorum
  exact hquorum.1

theorem sound_new (p : Panel) (id : String) (kind : EntryKind) (level : Level) (content : Content)
    (prevHash : Digest) (now : Instant) :
    (Entry.new id kind level content prevHash now).Sound p where
  distinct := List.nodup_nil
  member _ h := absurd h List.not_mem_nil
  named _ h := absurd h List.not_mem_nil
  signed _ h := absurd h List.not_mem_nil
  quorum h := by rcases h with h | h <;> cases h

/-- A vote of a member that has not voted is one more vote in order. -/
theorem VotedBy.withVote (h : e.VotedBy p) {witness : String} (hmem : p.contains witness = true)
    (hnew : e.hasVoteFrom witness = false) (accept : Bool) (reason : Option String)
    (now : Instant) : (e.withVote (Vote.cast witness e.id accept reason now)).VotedBy p := by
  have hwitness : witness ∉ e.votes.map (·.witness) := by
    simpa [hasVoteFrom] using hnew
  have forall_votes : ∀ {q : Vote → Prop}, (∀ v ∈ e.votes, q v) →
      q (Vote.cast witness e.id accept reason now) →
      ∀ v ∈ (e.withVote (Vote.cast witness e.id accept reason now)).votes, q v := by
    intro q hold hlast v hv
    rw [withVote_votes] at hv
    rcases List.mem_append.1 hv with hv | hv
    · exact hold v hv
    · rwa [List.mem_singleton.1 hv]
  constructor
  case distinct =>
    rw [withVote_votes, List.map_append, List.nodup_append]
    refine ⟨h.distinct, List.nodup_singleton _, ?_⟩
    rintro x hx y hy rfl
    rw [List.map_singleton, List.mem_singleton] at hy
    subst hy
    exact hwitness hx
  case member => exact forall_votes h.member (of_decide_eq_true hmem)
  case named => exact forall_votes (by simpa using h.named) (by simp [Vote.cast])
  case signed => exact forall_votes h.signed rfl

/-- A step that adds no vote keeps the votes in order. -/
theorem VotedBy.of_eq (h : e.VotedBy p) (hvotes : e'.votes = e.votes) (hid : e'.id = e.id) :
    e'.VotedBy p where
  distinct := by rw [hvotes]; exact h.distinct
  member := by rw [hvotes]; exact h.member
  named := by rw [hvotes, hid]; exact h.named
  signed := by rw [hvotes]; exact h.signed

/-- Each step keeps the votes of an entry in order, and its quorum. -/
theorem Step.sound (hs : Step p e e') (h : e.Sound p) : e'.Sound p := by
  have hkind := hs.progress.kind_eq
  cases hs with
  | kept => exact h
  | voted now witness accept reason hmem hnew hlive =>
    refine ⟨h.toVotedBy.withVote hmem hnew accept reason now, ?_⟩
    rw [withVote_phase]
    intro hphase
    -- a vote accepts nothing by itself, and is one of those that accept or not
    have hbefore : e.phase = .accepted ∨ e.phase = .finalized := by
      revert hphase
      cases e.phase <;> decide
    have hmore : e.accepts ≤ (e.withVote (Vote.cast witness e.id accept reason now)).accepts := by
      rw [accepts, accepts, withVote_votes, List.countP_append]
      exact Nat.le_add_right _ _
    have hrequired : (e.withVote (Vote.cast witness e.id accept reason now)).requiredWitnesses =
        e.requiredWitnesses := by
      rw [requiredWitnesses, hkind, requiredWitnesses]
    rw [hrequired]
    exact Panel.isQuorum_mono hmore (h.quorum hbefore)
  | accepted hopen hquorum =>
    rw [advanced_of_isOpen hopen (.inl rfl)]
    exact ⟨h.toVotedBy.of_eq rfl rfl, fun _ => hquorum⟩
  | rejected hopen hlost =>
    rw [advanced_of_isOpen hopen (.inr rfl)]
    exact ⟨h.toVotedBy.of_eq rfl rfl, fun hphase => by rcases hphase with h | h <;> cases h⟩
  | sealed tree height index haccepted =>
    rw [sealEntry_eq tree height index haccepted]
    exact ⟨h.toVotedBy.of_eq rfl rfl, fun _ => h.quorum (.inl haccepted)⟩

end Entry

namespace Chain

variable {panel : Panel} {rule : ForkRule} {as bs : List Action}

theorem sound_run (h : (suffixes (new panel rule) as).Nodup) :
    ∀ e ∈ ((new panel rule).run as).entries, e.Sound panel :=
  forall_entries_run (Entry.sound_new panel) (fun _ _ hs => hs.sound) h

/-- The check for a quorum is met by an entry that counts as accepted. -/
theorem checkConsensus_run (h : (suffixes (new panel rule) as).Nodup) {id : String} {e : Entry}
    (he : entry? ((new panel rule).run as) id = some e)
    (hphase : e.phase = .accepted ∨ e.phase = .finalized) :
    (((new panel rule).run as).checkConsensus id).1 = true := by
  have hquorum := (sound_run h e (of_entry?_eq_some he).1).quorum hphase
  rw [checkConsensus, he]
  show ((new panel rule).run as).panel.isQuorum e.requiredWitnesses e.accepts = true
  rwa [run_panel]

/-- In every run of a new chain in which no suffix is taken twice, the votes on an entry come from
    different members of the panel, name the entry and are signed.  An entry that is accepted or
    sealed has at least the accepting votes that its kind asks for, and at least the share of all
    members that the panel asks for; the check for a quorum succeeds for it now and after
    whatever follows. -/
theorem acceptance_run (panel : Panel) (rule : ForkRule) (as bs : List Action)
    (h : (suffixes (new panel rule) (as ++ bs)).Nodup) :
    ∀ e ∈ ((new panel rule).run as).entries, e.VotedBy panel ∧
      (e.phase = .accepted ∨ e.phase = .finalized →
        e.requiredWitnesses ≤ e.accepts ∧
        panel.threshold.le (.ratio e.accepts panel.nodes.length) = true ∧
        (((new panel rule).run as).checkConsensus e.id).1 = true ∧
        (((new panel rule).run (as ++ bs)).checkConsensus e.id).1 = true) := by
  intro e he
  have hsofar := nodup_of_suffixes_append h
  have hsound := sound_run hsofar e he
  refine ⟨hsound.toVotedBy, fun hphase => ?_⟩
  have hquorum := hsound.quorum hphase
  simp only [Panel.isQuorum, Bool.and_eq_true, decide_eq_true_eq] at hquorum
  have hfound : entry? ((new panel rule).run as) e.id = some e :=
    (entry?_eq_some_iff (traced_run panel rule as hsofar).consistent.distinct).2 ⟨he, rfl⟩
  obtain ⟨e', he', hprogress⟩ := progress_run h hfound
  have hlater := hprogress.phase.accepted_or_finalized hphase
  exact ⟨hquorum.1, hquorum.2, checkConsensus_run hsofar hfound hphase,
    checkConsensus_run h he' hlater⟩

/-- The first seven actions of the run accept a credential, and the next vote on it rejects. -/
theorem acceptance_credentialRun :
    let before := credentialRun.take 7
    let after := [.submitVote .epoch "act:credential_issuance:x1" "w3" false none]
    (suffixes (new trio .lowestEntryId) (before ++ after)).Nodup ∧
      ∀ e ∈ ((new trio .lowestEntryId).run before).entries, e.VotedBy trio ∧
        (e.phase = .accepted ∨ e.phase = .finalized →
          e.requiredWitnesses ≤ e.accepts ∧
          trio.threshold.le (.ratio e.accepts trio.nodes.length) = true ∧
          (((new trio .lowestEntryId).run before).checkConsensus e.id).1 = true ∧
          (((new trio .lowestEntryId).run (before ++ after)).checkConsensus e.id).1 = true) := by
  intro before after
  have h : (suffixes (new trio .lowestEntryId) (before ++ after)).Nodup := by decide
  exact ⟨h, acceptance_run trio .lowestEntryId before after h⟩

end Chain

end WitnessLedger
