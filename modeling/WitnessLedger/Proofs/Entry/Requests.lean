import WitnessLedger.Proofs.Chain.Rejection

/-!
# Requests to vote on an entry

What requests make of an entry, when each is a vote that is counted at once, does not depend on
their order, as long as no witness asks twice.  Whether a vote is taken depends on the member that
casts it and on whether the entry is sealed or rejected, which no vote changes.  And though the
entry is accepted in the middle of the requests, at a point that depends on the order, it is
accepted at the end exactly if all its accepting votes together are a quorum: a quorum stays one.

## Key results

- `verdict_requested`: a request does not change what another witness is answered
- `tally_eq`: what a list of requests makes of an entry, in closed form
- `equallyVoted_tally`: the same requests in another order make the same of it
-/

namespace WitnessLedger

/-- A request of a witness to record its vote on an entry, and to accept the entry if it then has a
    quorum. -/
structure VoteRequest where
  entry : String
  witness : String
  accept : Bool
  deriving DecidableEq

namespace Entry

/-- What a request to vote on an entry is answered: that it is done, or why it is refused. -/
def verdict (p : Panel) (e : Entry) (witness : String) : Except LedgerError Unit :=
  if !p.contains witness then .error (.unauthorized witness)
  else if e.hasVoteFrom witness then .error (.duplicateVote e.id witness)
  else if e.phase.isTerminal then .error (.invalidState (.closedToVotes e.id e.phase))
  else .ok ()

/-- Whether the vote of a witness is taken. -/
def takes (p : Panel) (e : Entry) (witness : String) : Bool :=
  p.contains witness && !e.hasVoteFrom witness && !e.phase.isTerminal

/-- The entry after its votes have been counted. -/
def counted (p : Panel) (e : Entry) : Entry :=
  if p.isQuorum e.requiredWitnesses e.accepts then e.advanced .accepted else e

/-- The entry after a request, which may be on another entry. -/
def requested (p : Panel) (e : Entry) (now : Instant) (r : VoteRequest) : Entry :=
  if r.entry = e.id ∧ e.takes p r.witness = true then
    (e.withVote (Vote.cast r.witness e.id r.accept none now)).counted p
  else e

/-- The phase of an entry that has just been voted on, once it has a number of accepting votes. -/
def phaseWith (p : Panel) (e : Entry) (accepts : Nat) : Phase :=
  if e.phase.isOpen then
    if p.isQuorum e.requiredWitnesses accepts then .accepted else .voting
  else e.phase

/-- Whether counting votes can move an entry from one phase to another. -/
def Moves (before after : Phase) : Prop :=
  after = before ∨ (before.isOpen = true ∧ (after = .voting ∨ after = .accepted))

/-- What two entries have in common that differ only in the order and the times of their votes. -/
structure EquallyVoted (e e' : Entry) : Prop where
  /-- Everything but the votes is the same, the phase included. -/
  core : e' = { e with votes := e'.votes }
  /-- The same witnesses have voted, each with the same decision. -/
  ballots : (e.votes.map fun v => (v.witness, v.accept)).Perm
    (e'.votes.map fun v => (v.witness, v.accept))
  accepts_eq : e.accepts = e'.accepts
  rejects_eq : e.rejects = e'.rejects

variable {p : Panel} {e : Entry} {now : Instant} {r : VoteRequest}

/-- The votes say how many accept and how many reject. -/
theorem EquallyVoted.of_ballots {e' : Entry} (hcore : e' = { e with votes := e'.votes })
    (hballots : (e.votes.map fun v => (v.witness, v.accept)).Perm
      (e'.votes.map fun v => (v.witness, v.accept))) : EquallyVoted e e' := by
  -- both counts are counts of the ballots
  have haccepts : ∀ x : Entry,
      x.accepts = (x.votes.map fun v => (v.witness, v.accept)).countP (·.2) := by
    intro x
    rw [List.countP_map]
    rfl
  have hrejects : ∀ x : Entry,
      x.rejects = (x.votes.map fun v => (v.witness, v.accept)).countP (!·.2) := by
    intro x
    rw [List.countP_map]
    rfl
  refine ⟨hcore, hballots, ?_, ?_⟩
  · rw [haccepts, haccepts, hballots.countP_eq]
  · rw [hrejects, hrejects, hballots.countP_eq]

theorem takes_iff {w : String} : e.takes p w = true ↔
    p.contains w = true ∧ e.hasVoteFrom w = false ∧ e.phase.isTerminal = false := by
  simp [takes, and_assoc]

/-- A vote is taken when nothing speaks against it. -/
theorem verdict_eq_ok_iff {w : String} : e.verdict p w = .ok () ↔ e.takes p w = true := by
  rw [verdict, takes]
  cases p.contains w <;> cases e.hasVoteFrom w <;> cases e.phase.isTerminal <;> simp

/-! ## One request -/

/-- A vote leaves an open entry open. -/
theorem withVote_phase_eq_voting_iff (v : Vote) :
    (e.withVote v).phase = .voting ↔ e.phase.isOpen = true := by
  rw [withVote_phase]
  cases e.phase <;> decide

/-- Counting moves an entry that has just been voted on if it is not accepted yet. -/
theorem counted_eq (hphase : e.phase = .voting ∨ e.phase = .accepted) :
    e.counted p =
      if e.phase = .voting ∧ p.isQuorum e.requiredWitnesses e.accepts = true then
        e.advanced .accepted
      else e := by
  rw [counted]
  rcases hphase with hphase | hphase
  · simp [hphase]
  · have hkept : e.advanced .accepted = e := by
      rw [advanced, advance?, if_neg (by rw [hphase]; decide), Option.getD_none]
    simp [hphase, hkept]

theorem requested_of_ne (h : r.entry ≠ e.id) : e.requested p now r = e :=
  if_neg fun hr => h hr.1

theorem requested_of_not_takes (h : e.takes p r.witness = false) : e.requested p now r = e :=
  if_neg fun hr => by simp [h] at hr

/-- A vote that is taken is added, and moves the phase to where the count wants it. -/
theorem requested_of_takes (hid : r.entry = e.id) (h : e.takes p r.witness = true) :
    e.requested p now r =
      { e with votes := e.votes ++ [Vote.cast r.witness e.id r.accept none now]
               phase := e.phaseWith p (e.accepts + if r.accept then 1 else 0) } := by
  have hlive := (takes_iff.1 h).2.2
  rw [requested, if_pos ⟨hid, h⟩, counted, accepts_withVote]
  have hrequired : (e.withVote (Vote.cast r.witness e.id r.accept none now)).requiredWitnesses =
      e.requiredWitnesses := by
    rw [withVote_eq]
    rfl
  have haccept : (Vote.cast r.witness e.id r.accept none now).accept = r.accept := rfl
  rw [hrequired, haccept, advanced_eq, withVote_eq, phaseWith]
  -- what is left to compare are the phases
  generalize p.isQuorum e.requiredWitnesses (e.accepts + if r.accept then 1 else 0) = quorum
  cases hphase : e.phase with
  | proposed | voting | accepted => cases quorum <;> rfl
  | finalized | rejected => simp [hphase, Phase.isTerminal] at hlive

@[simp] theorem requested_id (p : Panel) (e : Entry) (now : Instant) (r : VoteRequest) :
    (e.requested p now r).id = e.id := by
  rw [requested, counted]
  split <;> [split; skip] <;> simp

theorem requested_eq_or (p : Panel) (e : Entry) (now : Instant) (r : VoteRequest) :
    (r.entry = e.id ∧ e.takes p r.witness = true) ∨ e.requested p now r = e := by
  by_cases h : r.entry = e.id ∧ e.takes p r.witness = true
  · exact .inl h
  · exact .inr (if_neg h)

theorem Moves.trans {a b c : Phase} (hab : Moves a b) (hbc : Moves b c) : Moves a c := by
  rcases hab with rfl | ⟨hopen, rfl | rfl⟩
  · exact hbc
  · rcases hbc with rfl | ⟨-, hc⟩
    · exact .inr ⟨hopen, .inl rfl⟩
    · exact .inr ⟨hopen, hc⟩
  · rcases hbc with rfl | ⟨hnot, -⟩
    · exact .inr ⟨hopen, .inr rfl⟩
    · cases hnot

theorem Moves.isTerminal_eq {a b : Phase} (h : Moves a b) : b.isTerminal = a.isTerminal := by
  rcases h with rfl | ⟨hopen, rfl | rfl⟩
  · rfl
  · exact (Phase.isTerminal_of_isOpen hopen).symm
  · exact (Phase.isTerminal_of_isOpen hopen).symm

theorem moves_phaseWith (p : Panel) (e : Entry) (accepts : Nat) :
    Moves e.phase (e.phaseWith p accepts) := by
  rw [phaseWith]
  split
  · next hopen =>
    refine .inr ⟨hopen, ?_⟩
    split
    · exact .inr rfl
    · exact .inl rfl
  · exact .inl rfl

theorem moves_requested (p : Panel) (e : Entry) (now : Instant) (r : VoteRequest) :
    Moves e.phase (e.requested p now r).phase := by
  rcases requested_eq_or p e now r with ⟨hid, htakes⟩ | h
  · rw [requested_of_takes hid htakes]
    exact moves_phaseWith ..
  · rw [h]
    exact .inl rfl

/-- A request neither opens a sealed or rejected entry nor closes another one. -/
theorem isTerminal_requested (p : Panel) (e : Entry) (now : Instant) (r : VoteRequest) :
    (e.requested p now r).phase.isTerminal = e.phase.isTerminal :=
  (moves_requested p e now r).isTerminal_eq

theorem hasVoteFrom_requested {w : String} (h : r.entry = e.id → r.witness ≠ w) :
    (e.requested p now r).hasVoteFrom w = e.hasVoteFrom w := by
  rcases requested_eq_or p e now r with ⟨hid, htakes⟩ | heq
  · have hw : (r.witness == w) = false := by simpa using h hid
    rw [requested_of_takes hid htakes]
    simp [hasVoteFrom, Vote.cast, hw]
  · rw [heq]

/-- A request does not change whether the vote of another witness is taken. -/
theorem takes_requested {w : String} (h : r.entry = e.id → r.witness ≠ w) :
    (e.requested p now r).takes p w = e.takes p w := by
  rw [takes, takes, hasVoteFrom_requested h, isTerminal_requested]

/-- A request does not change what another witness is answered. -/
theorem verdict_requested {w : String} (h : r.entry = e.id → r.witness ≠ w) :
    (e.requested p now r).verdict p w = e.verdict p w := by
  rw [verdict, verdict, hasVoteFrom_requested h, isTerminal_requested, requested_id]
  by_cases hterminal : e.phase.isTerminal = true
  · -- a sealed or rejected entry takes no vote, so that its phase is reported as it was
    have hsame : e.requested p now r = e :=
      requested_of_not_takes (by simp [takes, hterminal])
    rw [hsame]
  · rw [if_neg hterminal, if_neg hterminal]

/-! ## Requests one after the other -/

/-- The entry after some requests, each with the moment at which it is made. -/
def tally (p : Panel) (rs : List (Instant × VoteRequest)) (e : Entry) : Entry :=
  rs.foldl (fun e q => e.requested p q.1 q.2) e

/-- The requests whose votes an entry takes. -/
def taken (p : Panel) (e : Entry) (rs : List (Instant × VoteRequest)) :
    List (Instant × VoteRequest) :=
  rs.filter fun q => q.2.entry == e.id && e.takes p q.2.witness

@[simp] theorem tally_id (p : Panel) (rs : List (Instant × VoteRequest)) (e : Entry) :
    (e.tally p rs).id = e.id := by
  induction rs generalizing e with
  | nil => rfl
  | cons q rs ih => rw [tally, List.foldl_cons, ← tally, ih, requested_id]

theorem moves_tally (p : Panel) (rs : List (Instant × VoteRequest)) (e : Entry) :
    Moves e.phase (e.tally p rs).phase := by
  induction rs generalizing e with
  | nil => exact .inl rfl
  | cons q rs ih => exact (moves_requested p e q.1 q.2).trans (ih _)

/-- A quorum stays one, so that only the last count decides. -/
theorem phaseWith_phaseWith {e' : Entry} {a b : Nat} (hab : a ≤ b)
    (hphase : e'.phase = e.phaseWith p a) (hkind : e'.kind = e.kind) :
    e'.phaseWith p b = e.phaseWith p b := by
  have hrequired : e'.requiredWitnesses = e.requiredWitnesses := by
    rw [requiredWitnesses, requiredWitnesses, hkind]
  rw [phaseWith, phaseWith, hphase, phaseWith, hrequired]
  by_cases hopen : e.phase.isOpen = true
  · by_cases hquorum : p.isQuorum e.requiredWitnesses a = true
    · simp only [hopen, hquorum, Panel.isQuorum_mono hab hquorum, if_true]
      rfl
    · simp only [hopen, hquorum, if_true]
      rfl
  · simp only [hopen, Bool.false_eq_true, if_false]

/-- After a vote that is taken, the phase is the one of a count of all votes, whether more votes are
    taken or not. -/
theorem phaseWith_requested (now : Instant) (ts : List (Instant × VoteRequest))
    (hid : r.entry = e.id) (h : e.takes p r.witness = true) :
    let e' := e.requested p now r
    (if ts = [] then e'.phase else e'.phaseWith p (e'.accepts + ts.countP (·.2.accept))) =
      e.phaseWith p (e.accepts + ((now, r) :: ts).countP (·.2.accept)) := by
  intro e'
  have he' : e' = _ := requested_of_takes hid h
  have haccepts : e'.accepts = e.accepts + if r.accept then 1 else 0 := by
    rw [he', accepts, List.countP_append, List.countP_singleton, accepts]
    rfl
  have hphase : e'.phase = e.phaseWith p e'.accepts := by rw [haccepts, he']
  have hkind : e'.kind = e.kind := by rw [he']
  have hcount : e.accepts + ((now, r) :: ts).countP (·.2.accept) =
      e'.accepts + ts.countP (·.2.accept) := by
    simp only [List.countP_cons, haccepts]
    omega
  rw [hcount]
  split
  · next hnone => rw [hnone, List.countP_nil, Nat.add_zero, hphase]
  · exact phaseWith_phaseWith (Nat.le_add_right ..) hphase hkind

/-- What requests make of an entry, no witness asking twice: the votes that it takes are added, and
    if there are any they are counted. -/
theorem tally_eq (rs : List (Instant × VoteRequest)) (e : Entry)
    (h : (rs.map fun q => (q.2.entry, q.2.witness)).Nodup) :
    e.tally p rs =
      { e with
        votes := e.votes ++
          (e.taken p rs).map fun q => Vote.cast q.2.witness e.id q.2.accept none q.1
        phase := if e.taken p rs = [] then e.phase
          else e.phaseWith p (e.accepts + (e.taken p rs).countP (·.2.accept)) } := by
  induction rs generalizing e with
  | nil => simp [tally, taken]
  | cons q rs ih =>
    rw [List.map_cons, List.nodup_cons] at h
    obtain ⟨hnew, hrest⟩ := h
    -- the first request does not change which of the others are taken
    have htaken : (e.requested p q.1 q.2).taken p rs = e.taken p rs := by
      apply List.filter_congr
      intro q' hq'
      rw [requested_id]
      by_cases hid : q'.2.entry = e.id
      · rw [takes_requested]
        intro hid' hw
        exact hnew (List.mem_map.2 ⟨q', hq', by rw [hid, hid', hw]⟩)
      · have hother : (q'.2.entry == e.id) = false := by simpa using hid
        rw [hother, Bool.false_and, Bool.false_and]
    have htally : e.tally p (q :: rs) = (e.requested p q.1 q.2).tally p rs := rfl
    rw [htally, ih _ hrest, htaken]
    by_cases hq : q.2.entry = e.id ∧ e.takes p q.2.witness = true
    · have hfirst : e.taken p (q :: rs) = q :: e.taken p rs := by
        simp [taken, hq.1, hq.2]
      have hlast := phaseWith_requested q.1 (e.taken p rs) hq.1 hq.2
      rw [hfirst, if_neg (List.cons_ne_nil _ _), ← hlast, requested_of_takes hq.1 hq.2,
        List.map_cons, List.append_assoc, List.singleton_append]
    · have hfirst : e.taken p (q :: rs) = e.taken p rs := by
        rw [taken, List.filter_cons_of_neg (by simpa using hq), taken]
      rw [hfirst, requested, if_neg hq]

/-- The same requests in another order make the same of an entry, up to the order of its votes,
    whenever each of them is made. -/
theorem equallyVoted_tally {rs rs' : List (Instant × VoteRequest)}
    (hperm : (rs.map Prod.snd).Perm (rs'.map Prod.snd))
    (h : ((rs.map Prod.snd).map fun r => (r.entry, r.witness)).Nodup) :
    EquallyVoted (e.tally p rs) (e.tally p rs') := by
  have h' : ((rs'.map Prod.snd).map fun r => (r.entry, r.witness)).Nodup :=
    (hperm.map _).nodup_iff.1 h
  rw [List.map_map] at h h'
  -- both orders take the same votes
  have htaken : ∀ qs : List (Instant × VoteRequest), (e.taken p qs).map Prod.snd =
      (qs.map Prod.snd).filter fun r => r.entry == e.id && e.takes p r.witness := by
    intro qs
    rw [taken, List.filter_map]
    rfl
  have hsame : ((e.taken p rs).map Prod.snd).Perm ((e.taken p rs').map Prod.snd) := by
    rw [htaken, htaken]
    exact hperm.filter _
  have hnone : e.taken p rs = [] ↔ e.taken p rs' = [] := by
    rw [← List.map_eq_nil_iff (f := Prod.snd), ← List.map_eq_nil_iff (f := Prod.snd)]
    exact ⟨fun h => (h ▸ hsame).nil_eq.symm, fun h => (h ▸ hsame).eq_nil⟩
  have hcount : (e.taken p rs).countP (·.2.accept) = (e.taken p rs').countP (·.2.accept) := by
    have hcount := hsame.countP_eq (·.accept)
    rwa [List.countP_map, List.countP_map] at hcount
  rw [tally_eq rs e h, tally_eq rs' e h']
  apply EquallyVoted.of_ballots
  · simp only [hnone, hcount]
  · simp only [List.map_append, List.map_map]
    refine .append_left _ ?_
    have hballots := hsame.map fun r => (r.witness, r.accept)
    rwa [List.map_map, List.map_map] at hballots

end Entry

end WitnessLedger
