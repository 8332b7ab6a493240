import WitnessLedger.Proofs.Chain.Votes

/-!
# When an entry can be rejected

An open entry can be rejected only once no votes that may still come can make a quorum of it.  The
check behind that adds the members that have not voted to the accepting votes: it is right because
votes come from different members, so that each later vote uses up one of those that are missing,
and because they can all still accept.

## Key results

- `Entry.bestCase_foldl_polled_le`: no votes make the best case better
- `Entry.accepts_foldl_polled`: if all silent members accept, the best case is reached
- `reject_iff_unreachable`: an entry can be rejected exactly when no votes lead to a quorum
- `rejectable_run`: this for every run, and what follows for accepting and rejecting
-/

namespace WitnessLedger

/-- What a member says when it votes on an entry, or tries to. -/
structure Ballot where
  now : Instant
  witness : String
  accept : Bool
  reason : Option String

/-- The ballot of a witness that accepts. -/
def Ballot.approval (now : Instant) (witness : String) : Ballot := ⟨now, witness, true, none⟩

/-- The accepting votes of an entry if every member that has not voted accepts it. -/
def Panel.bestCase (p : Panel) (e : Entry) : Nat := e.accepts + (p.size - e.votes.length)

/-- The members that have not voted on an entry. -/
def Panel.silent (p : Panel) (e : Entry) : List String := p.nodes.filter fun w => !e.hasVoteFrom w

namespace Entry

variable {p : Panel} {e : Entry}

/-- An open entry after a ballot, which counts if it is the first of a member. -/
def polled (p : Panel) (e : Entry) (b : Ballot) : Entry :=
  if p.contains b.witness && !e.hasVoteFrom b.witness then
    e.withVote (Vote.cast b.witness e.id b.accept b.reason b.now)
  else e

theorem hasVoteFrom_iff {w : String} : e.hasVoteFrom w = true ↔ w ∈ e.votes.map (·.witness) := by
  simp [hasVoteFrom]

theorem hasVoteFrom_withVote (v : Vote) (w : String) :
    (e.withVote v).hasVoteFrom w = (e.hasVoteFrom w || v.witness == w) := by
  simp [hasVoteFrom]

theorem accepts_withVote (v : Vote) :
    (e.withVote v).accepts = e.accepts + if v.accept then 1 else 0 := by
  rw [accepts, withVote_votes, List.countP_append, List.countP_singleton, accepts]

/-- The members that have voted and those that have not make up the panel. -/
theorem VotedBy.length_votes_add_silent (h : e.VotedBy p) :
    e.votes.length + (p.silent e).length = p.size := by
  have hvoted : (p.nodes.filter e.hasVoteFrom).Perm (e.votes.map (·.witness)) := by
    rw [List.perm_ext_iff_of_nodup (p.nodup_nodes.filter _) h.distinct]
    intro w
    rw [List.mem_filter, hasVoteFrom_iff]
    -- a witness that has voted is a member
    refine and_iff_right_of_imp fun hw => ?_
    obtain ⟨v, hv, rfl⟩ := List.mem_map.1 hw
    exact h.member v hv
  have hlength := hvoted.length_eq
  rw [List.length_map] at hlength
  rw [← hlength, Panel.silent, Panel.size]
  exact (List.length_eq_length_filter_add _).symm

theorem VotedBy.length_votes_le (h : e.VotedBy p) : e.votes.length ≤ p.size := by
  rw [← h.length_votes_add_silent]
  exact Nat.le_add_right _ _

theorem VotedBy.bestCase_eq (h : e.VotedBy p) :
    p.bestCase e = e.accepts + (p.silent e).length := by
  have hsize := h.length_votes_add_silent
  rw [Panel.bestCase]
  omega

/-! ## A ballot -/

theorem polled_of_counts {b : Ballot} (hmem : p.contains b.witness = true)
    (hnew : e.hasVoteFrom b.witness = false) :
    e.polled p b = e.withVote (Vote.cast b.witness e.id b.accept b.reason b.now) := by
  rw [polled, if_pos (by rw [hmem, hnew]; rfl)]

/-- A ballot counts or changes nothing. -/
theorem polled_cases (p : Panel) (e : Entry) (b : Ballot) :
    (p.contains b.witness = true ∧ e.hasVoteFrom b.witness = false ∧
      e.polled p b = e.withVote (Vote.cast b.witness e.id b.accept b.reason b.now)) ∨
    e.polled p b = e := by
  by_cases h : p.contains b.witness = true ∧ e.hasVoteFrom b.witness = false
  · exact .inl ⟨h.1, h.2, polled_of_counts h.1 h.2⟩
  · refine .inr (if_neg fun hcounts => h ?_)
    simpa using hcounts

theorem polled_requiredWitnesses (b : Ballot) :
    (e.polled p b).requiredWitnesses = e.requiredWitnesses := by
  rcases polled_cases p e b with ⟨-, -, h⟩ | h <;> rw [h]
  rw [withVote_eq]
  rfl

theorem polled_isOpen (b : Ballot) (hopen : e.phase.isOpen = true) :
    (e.polled p b).phase.isOpen = true := by
  rcases polled_cases p e b with ⟨-, -, h⟩ | h <;> rw [h]
  · rw [withVote_phase]
    split
    · rfl
    · exact hopen
  · exact hopen

theorem VotedBy.polled (h : e.VotedBy p) (b : Ballot) : (e.polled p b).VotedBy p := by
  rcases polled_cases p e b with ⟨hmem, hnew, heq⟩ | heq <;> rw [heq]
  · exact h.withVote hmem hnew b.accept b.reason b.now
  · exact h

/-- A vote takes away one of the members that might still accept, and adds at most one that
    does. -/
theorem VotedBy.bestCase_polled_le (h : e.VotedBy p) (b : Ballot) :
    p.bestCase (e.polled p b) ≤ p.bestCase e := by
  rcases polled_cases p e b with ⟨-, -, heq⟩ | heq
  · -- the vote that counts still fits into the panel
    have hfits := (h.polled b).length_votes_le
    rw [heq, withVote_votes, List.length_append, List.length_singleton] at hfits
    rw [heq, Panel.bestCase, Panel.bestCase, accepts_withVote, withVote_votes, List.length_append,
      List.length_singleton]
    split <;> omega
  · rw [heq]

/-! ## Ballots one after the other -/

theorem foldl_polled_requiredWitnesses (bs : List Ballot) :
    (bs.foldl (polled p) e).requiredWitnesses = e.requiredWitnesses := by
  induction bs generalizing e with
  | nil => rfl
  | cons b bs ih => rw [List.foldl_cons, ih, polled_requiredWitnesses]

/-- Whatever is voted, the best case does not get better. -/
theorem bestCase_foldl_polled_le (h : e.VotedBy p) (bs : List Ballot) :
    p.bestCase (bs.foldl (polled p) e) ≤ p.bestCase e := by
  induction bs generalizing e with
  | nil => exact Nat.le_refl _
  | cons b bs ih => exact Nat.le_trans (ih (h.polled b)) (h.bestCase_polled_le b)

/-- The approvals of different members that have not voted all count. -/
theorem accepts_foldl_polled (now : Instant) {ws : List String} (hnodup : ws.Nodup)
    (hmem : ∀ w ∈ ws, p.contains w = true) (hnew : ∀ w ∈ ws, e.hasVoteFrom w = false) :
    ((ws.map (Ballot.approval now)).foldl (polled p) e).accepts = e.accepts + ws.length := by
  induction ws generalizing e with
  | nil => rfl
  | cons w ws ih =>
    rw [List.nodup_cons] at hnodup
    rw [List.forall_mem_cons] at hmem hnew
    have hcounts := polled_of_counts (b := Ballot.approval now w) hmem.1 hnew.1
    rw [List.map_cons, List.foldl_cons, hcounts, ih hnodup.2 hmem.2, accepts_withVote]
    · show e.accepts + 1 + ws.length = e.accepts + (ws.length + 1)
      omega
    · -- the others have still not voted
      intro x hx
      rw [hasVoteFrom_withVote, hnew.2 x hx, Bool.false_or]
      show (w == x) = false
      rw [beq_eq_false_iff_ne]
      rintro rfl
      exact hnodup.1 hx

/-- If all members that have not voted accept, the best case is reached. -/
theorem VotedBy.accepts_foldl_silent (h : e.VotedBy p) (now : Instant) :
    (((p.silent e).map (Ballot.approval now)).foldl (Entry.polled p) e).accepts =
      p.bestCase e := by
  have hnodup : (p.silent e).Nodup := p.nodup_nodes.filter _
  rw [accepts_foldl_polled now hnodup, h.bestCase_eq]
  · exact fun w hw => decide_eq_true (List.mem_of_mem_filter hw)
  · intro w hw
    simpa using (List.mem_filter.1 hw).2

end Entry

namespace Chain

variable {c : Chain} {id : String} {e : Entry}

/-- The chain after ballots on an entry, of which those that are refused change nothing. -/
def poll (c : Chain) (id : String) (bs : List Ballot) : Chain :=
  c.run (bs.map fun b => .submitVote b.now id b.witness b.accept b.reason)

/-- The members that have not voted on the entry with an id. -/
def silent (c : Chain) (id : String) : List String :=
  match c.entry? id with
  | some e => c.panel.silent e
  | none => c.panel.nodes

/-- Whether a call to accept an entry finds it accepted. -/
def CanAccept (c : Chain) (id : String) : Prop := ∃ c', c.finalize id = .ok (true, c')

/-- Whether a call to reject an entry succeeds. -/
def CanReject (c : Chain) (id : String) : Prop := ∃ c', c.reject id = .ok c'

/-- A ballot on an open entry is seen in the index as the ballot on the entry. -/
theorem entry?_act_ballot (he : c.entry? id = some e) (hopen : e.phase.isOpen = true)
    (b : Ballot) :
    entry? (c.act (.submitVote b.now id b.witness b.accept b.reason)) id =
      some (e.polled c.panel b) := by
  have hid := (of_entry?_eq_some he).2
  have hlive := Phase.isTerminal_of_isOpen hopen
  rcases Entry.polled_cases c.panel e b with ⟨hmem, hnew, heq⟩ | heq
  · have hok : c.submitVote b.now id b.witness b.accept b.reason =
        .ok (_, c.update id (·.withVote (Vote.cast b.witness id b.accept b.reason b.now))) :=
      submitVote_eq_ok_iff.2 ⟨e, he, hmem, hnew, hlive, rfl, rfl⟩
    rw [act, hok, Run.stateAfter_ok, entry?_update (fun x => Entry.withVote_id x _) he,
      if_pos rfl, heq, hid]
  · rw [heq, act]
    cases hvote : c.submitVote b.now id b.witness b.accept b.reason with
    | error err => exact he
    | ok r =>
      -- a vote that is taken adds to the votes, so that the ballot did count
      obtain ⟨x, hx, hmem, hnew, -⟩ := submitVote_eq_ok_iff.1 hvote
      rw [he, Option.some.injEq] at hx
      subst hx
      have hlength := congrArg (·.votes.length) ((Entry.polled_of_counts hmem hnew).symm.trans heq)
      simp at hlength

theorem entry?_poll (he : c.entry? id = some e) (hopen : e.phase.isOpen = true)
    (bs : List Ballot) :
    entry? (c.poll id bs) id = some (bs.foldl (Entry.polled c.panel) e) := by
  induction bs generalizing c e with
  | nil => exact he
  | cons b bs ih =>
    have hpanel := (act_effect c (.submitVote b.now id b.witness b.accept b.reason)).panel_eq
    have hnext := ih (entry?_act_ballot he hopen b) (Entry.polled_isOpen b hopen)
    rwa [hpanel] at hnext

/-- The check for a quorum after ballots on an open entry. -/
theorem checkConsensus_poll (he : c.entry? id = some e) (hopen : e.phase.isOpen = true)
    (bs : List Ballot) :
    ((c.poll id bs).checkConsensus id).1 =
      c.panel.isQuorum e.requiredWitnesses (bs.foldl (Entry.polled c.panel) e).accepts := by
  rw [checkConsensus, entry?_poll he hopen]
  show (c.poll id bs).panel.isQuorum _ _ = _
  rw [poll, run_panel, Entry.foldl_polled_requiredWitnesses]

theorem canReject_iff (he : c.entry? id = some e) (hopen : e.phase.isOpen = true) :
    c.CanReject id ↔ c.panel.isQuorum e.requiredWitnesses (c.panel.bestCase e) = false := by
  constructor
  · rintro ⟨c', hc'⟩
    obtain ⟨x, hx, -, hlost, -⟩ := reject_eq_ok_iff.1 hc'
    rw [he, Option.some.injEq] at hx
    subst hx
    exact hlost
  · exact fun hlost => ⟨c.rejecting id, reject_eq_ok_iff.2 ⟨e, he, hopen, hlost, rfl⟩⟩

theorem canAccept_iff (he : c.entry? id = some e) (hopen : e.phase.isOpen = true) :
    c.CanAccept id ↔ c.hasQuorum e = true := by
  constructor
  · rintro ⟨c', hc'⟩
    obtain ⟨x, hx, hdone | hnow | hnot⟩ := finalize_eq_ok_iff.1 hc'
    · rw [he, Option.some.injEq] at hx
      subst hx
      rcases hdone.1 with hp | hp <;> rw [hp] at hopen <;> cases hopen
    · rw [he, Option.some.injEq] at hx
      subst hx
      exact hnow.2.1
    · cases hnot.2.2.1
  · exact fun hquorum =>
      ⟨c.accepting id, finalize_eq_ok_iff.2 ⟨e, he, .inr (.inl ⟨hopen, hquorum, rfl, rfl⟩)⟩⟩

/-- An open entry that cannot be rejected is one that can still reach a quorum, and the error says
    so. -/
theorem reject_eq_error (he : c.entry? id = some e) (hopen : e.phase.isOpen = true)
    (h : ¬c.CanReject id) : c.reject id = .error (.invalidState (.reachable id)) := by
  rw [canReject_iff he hopen, Bool.not_eq_false] at h
  have hquorum : c.panel.isQuorum e.requiredWitnesses (c.bestCase e) = true := h
  simp only [reject, findEntry, he, Bind.bind, Except.bind, hopen, hquorum]
  rfl

/-- An open entry whose votes are in order can be rejected exactly when no votes that may still
    come lead to a quorum. -/
theorem reject_iff_unreachable (he : c.entry? id = some e) (hopen : e.phase.isOpen = true)
    (hvotes : e.VotedBy c.panel) :
    c.CanReject id ↔ ∀ bs, ((c.poll id bs).checkConsensus id).1 = false := by
  rw [canReject_iff he hopen]
  constructor
  · intro hlost bs
    rw [checkConsensus_poll he hopen, ← Bool.not_eq_true]
    intro hquorum
    -- a quorum that is reached is one in the best case then, which is no better than now
    have hbest : (bs.foldl (Entry.polled c.panel) e).accepts ≤ c.panel.bestCase e :=
      Nat.le_trans (Nat.le_add_right _ _) (Entry.bestCase_foldl_polled_le hvotes bs)
    rw [Panel.isQuorum_mono hbest hquorum] at hlost
    cases hlost
  · intro hnone
    have hall := hnone ((c.panel.silent e).map (Ballot.approval .epoch))
    rwa [checkConsensus_poll he hopen, hvotes.accepts_foldl_silent] at hall

theorem silent_eq (he : c.entry? id = some e) : c.silent id = c.panel.silent e := by
  rw [silent, he]

/-- In the state after any run of a new chain, an entry cannot be both accepted and rejected.  One
    that is proposed or voted on can be rejected exactly when no further votes on it lead to a
    quorum, whoever casts them; otherwise the call fails, and the members that have not voted reach
    a quorum if they all accept.  Once all members have voted, it can be either accepted or
    rejected. -/
theorem rejectable_run (panel : Panel) (rule : ForkRule) (as : List Action) (id : String) :
    let c := (new panel rule).run as
    ¬(c.CanAccept id ∧ c.CanReject id) ∧
    (c.phase? id = some .proposed ∨ c.phase? id = some .voting →
      (c.CanReject id ↔ ∀ bs, ((c.poll id bs).checkConsensus id).1 = false) ∧
      (¬c.CanReject id → c.reject id = .error (.invalidState (.reachable id)) ∧
        ∀ now, ((c.poll id ((c.silent id).map (.approval now))).checkConsensus id).1 = true) ∧
      (c.silent id = [] → (c.CanAccept id ↔ ¬c.CanReject id))) := by
  intro c
  have hpanel : c.panel = panel := run_panel _ as
  constructor
  · rintro ⟨haccept, c', hreject⟩
    obtain ⟨e, he, hopen, hlost, -⟩ := reject_eq_ok_iff.1 hreject
    -- what accepts now also accepts in the best case
    have hquorum := (canAccept_iff he hopen).1 haccept
    have hbest : c.panel.isQuorum e.requiredWitnesses (c.bestCase e) = true :=
      Panel.isQuorum_mono (Nat.le_add_right _ _) hquorum
    rw [hbest] at hlost
    cases hlost
  · intro hphase
    obtain ⟨e, he, hopen⟩ : ∃ e, c.entry? id = some e ∧ e.phase.isOpen = true := by
      rcases hphase with hp | hp <;> obtain ⟨e, he, hp⟩ := phase?_eq_some_iff.1 hp <;>
        exact ⟨e, he, by rw [hp]; rfl⟩
    have hvotes : e.VotedBy c.panel := by
      rw [hpanel]
      exact votedBy_run as e (of_entry?_eq_some he).1
    have hall : ∀ now, ((c.poll id ((c.silent id).map (.approval now))).checkConsensus id).1 =
        c.panel.isQuorum e.requiredWitnesses (c.panel.bestCase e) := by
      intro now
      rw [silent_eq he, checkConsensus_poll he hopen, hvotes.accepts_foldl_silent]
    refine ⟨reject_iff_unreachable he hopen hvotes, fun hnot => ?_, fun hsilent => ?_⟩
    · refine ⟨reject_eq_error he hopen hnot, fun now => ?_⟩
      rwa [hall, ← Bool.not_eq_false, ← canReject_iff he hopen]
    · -- nobody is left to vote, so that the best case is the case
      have hbest : c.panel.bestCase e = e.accepts := by
        rw [hvotes.bestCase_eq, ← silent_eq he, hsilent]
        rfl
      rw [canAccept_iff he hopen, canReject_iff he hopen, hbest, Bool.not_eq_false]
      rfl

/-- Two of three members have rejected the second credential, so that it can be rejected.  One has
    accepted the first, which the other two can still make accepted. -/
theorem rejectable_credentialRun :
    let c := (new trio .lowestEntryId).run (credentialRun.take 6)
    let d := (new trio .lowestEntryId).run (credentialRun.take 3)
    let first := "act:credential_issuance:x1"
    let second := "act:credential_issuance:x2"
    c.phase? second = some .voting ∧ c.CanReject second ∧ ¬c.CanAccept second ∧
      (∀ bs, ((c.poll second bs).checkConsensus second).1 = false) ∧
    d.phase? first = some .voting ∧ d.silent first = ["w2", "w3"] ∧
      d.reject first = .error (.invalidState (.reachable first)) ∧
      ((d.poll first (["w2", "w3"].map (.approval .epoch))).checkConsensus first).1 = true := by
  intro c d first second
  have hsecond : c.phase? second = some .voting := by decide
  have hreject : c.CanReject second := ⟨_, rfl⟩
  have hfirst : d.phase? first = some .voting := by decide
  have hsilent : d.silent first = ["w2", "w3"] := by decide
  have hreached :
      ((d.poll first (["w2", "w3"].map (.approval .epoch))).checkConsensus first).1 = true := by
    decide +kernel
  obtain ⟨hnever, hopen⟩ := rejectable_run trio .lowestEntryId (credentialRun.take 6) second
  obtain ⟨-, hopen'⟩ := rejectable_run trio .lowestEntryId (credentialRun.take 3) first
  obtain ⟨hiff', hfails, -⟩ := hopen' (.inr hfirst)
  -- two approvals reach a quorum for the first one, which therefore cannot be rejected
  have hnot : ¬d.CanReject first := by
    intro hcan
    rw [hiff'.1 hcan] at hreached
    cases hreached
  exact ⟨hsecond, hreject, fun haccept => hnever ⟨haccept, hreject⟩,
    (hopen (.inr hsecond)).1.1 hreject, hfirst, hsilent, (hfails hnot).1, hreached⟩

end Chain

end WitnessLedger
