import WitnessLedger.Command.Quorum
import WitnessLedger.Proofs.Chain.Rejection
import WitnessLedger.Proofs.Settlement.Anchored
import Mathlib.Data.Nat.Find

/-!
# Votes that are collected

Members that have not voted on an open entry approve it one after the other, until their approvals
are a quorum.  More of them never make less of a quorum, and all of them always have the share that
the panel asks for; so the only thing that can be missing is members, for the number that the kind
of entry asks for.

## Key results

- `Panel.isQuorum_size`: all members are a quorum where they are enough for the required number
- `Chain.voteAndFinalize_approval`: what the approval of a member that has not voted does
- `collectFrom_of_quorum`, `collectFrom_of_none`: members approve up to the first quorum, or all do
- `exists_collectVotes`, `collectVotes_of_lt`: whether the votes of the panel accept a new entry
- `exists_collectFrom_run`: collecting votes is a run of the ledger
-/

namespace WitnessLedger

/-- A clock that goes on by a second from one reading to the next, as far as the years go. -/
def Clock.ticking : Clock := ⟨fun n => (Instant.ofParts? n 0).getD .epoch, 0⟩

/-- The members of a panel are the nodes that it is made of. -/
theorem Panel.nodes_of {nodes : List String} {threshold : Double} {p : Panel}
    (h : Panel.of nodes threshold = .ok p) : p.nodes = nodes := by
  unfold Panel.of at h
  split at h
  · cases h
  · split at h
    · cases h
    · split at h
      · cases h
        rfl
      · cases h

/-- All members are a quorum where they are enough for the required number. -/
theorem Panel.isQuorum_size {p : Panel} {required : Nat} (h : required ≤ p.size) :
    p.isQuorum required p.size = true := by
  have hsize : 0 < p.size := List.length_pos_iff.2 p.nodes_ne_nil
  have hrange := p.inRange
  rw [thresholdInRange, Bool.and_eq_true] at hrange
  rw [isQuorum, share, Double.ratio_self hsize, hrange.2, decide_eq_true h]
  rfl

theorem Entry.accepts_of_votes_eq_nil {e : Entry} (h : e.votes = []) : e.accepts = 0 := by
  rw [accepts, h, List.countP_nil]

namespace Chain

variable {c : Chain} {id w : String} {ws : List String} {e : Entry} {now : Instant}

/-- Ballots change the entries and nothing else. -/
theorem poll_eq (c : Chain) (id : String) (bs : List Ballot) :
    c.poll id bs = { c with entries := (c.poll id bs).entries } := by
  induction bs generalizing c with
  | nil => rfl
  | cons b bs ih =>
    have hstep : ∃ entries, c.act (.submitVote b.now id b.witness b.accept b.reason) =
        { c with entries } := by
      have heffect := act_effect c (.submitVote b.now id b.witness b.accept b.reason)
      generalize c.act (.submitVote b.now id b.witness b.accept b.reason) = c' at heffect
      cases heffect with
      | idle => exact ⟨c.entries, rfl⟩
      | voted => exact ⟨_, rfl⟩
    obtain ⟨entries, hstep⟩ := hstep
    have hcons : c.poll id (b :: bs) = poll { c with entries } id bs := by
      rw [← hstep]
      rfl
    rw [hcons, ih]

/-- Whether an open entry waits for the votes of different members of the panel. -/
structure Awaits (c : Chain) (id : String) (e : Entry) (ws : List String) : Prop where
  found : c.entry? id = some e
  isOpen : e.phase.isOpen = true
  nodup : ws.Nodup
  member : ∀ w ∈ ws, c.panel.contains w = true
  silent : ∀ w ∈ ws, e.hasVoteFrom w = false

/-- An open entry without votes waits for the whole panel. -/
theorem awaits_of_votes_eq_nil (he : c.entry? id = some e) (hopen : e.phase.isOpen = true)
    (hvotes : e.votes = []) : c.Awaits id e c.panel.nodes where
  found := he
  isOpen := hopen
  nodup := c.panel.nodup_nodes
  member _ hw := decide_eq_true hw
  silent w _ := by rw [Entry.hasVoteFrom, hvotes, List.any_nil]

/-- The approval of a member that has not voted is recorded. -/
theorem Awaits.submitVote_eq (h : c.Awaits id e (w :: ws)) (now : Instant) :
    c.submitVote now id w true none =
      .ok (Vote.cast w id true none now,
        c.update id (·.withVote (Vote.cast w id true none now))) :=
  submitVote_eq_ok_iff.2
    ⟨e, h.found, h.member w (List.mem_cons_self ..), h.silent w (List.mem_cons_self ..),
      Phase.isTerminal_of_isOpen h.isOpen, rfl, rfl⟩

theorem Awaits.poll_eq_update (h : c.Awaits id e (w :: ws)) (now : Instant) :
    c.poll id [.approval now w] = c.update id (·.withVote (Vote.cast w id true none now)) := by
  have hpoll : c.poll id [.approval now w] =
      Run.stateAfter c (c.submitVote now id w true none) := rfl
  rw [hpoll, h.submitVote_eq, Run.stateAfter_ok]

/-- After the approval of one member the entry has one more that accepts, and waits for the
    others. -/
theorem Awaits.poll (h : c.Awaits id e (w :: ws)) (now : Instant) :
    ∃ e', (c.poll id [.approval now w]).Awaits id e' ws ∧ e'.accepts = e.accepts + 1 ∧
      e'.requiredWitnesses = e.requiredWitnesses := by
  obtain ⟨hmem, hmembers⟩ := List.forall_mem_cons.1 h.member
  obtain ⟨hnew, hothers⟩ := List.forall_mem_cons.1 h.silent
  obtain ⟨hw, hnodup⟩ := List.nodup_cons.1 h.nodup
  have hcounts := Entry.polled_of_counts (b := .approval now w) hmem hnew
  refine ⟨e.polled c.panel (.approval now w), ⟨?_, Entry.polled_isOpen _ h.isOpen, hnodup, ?_, ?_⟩,
    ?_, Entry.polled_requiredWitnesses _⟩
  · exact entry?_poll h.found h.isOpen [.approval now w]
  · intro x hx
    rw [poll_eq]
    exact hmembers x hx
  · intro x hx
    have hne : (w == x) = false := by
      rw [beq_eq_false_iff_ne]
      rintro rfl
      exact hw hx
    rw [hcounts, Entry.hasVoteFrom_withVote, hothers x hx]
    exact hne
  · rw [hcounts, Entry.accepts_withVote]
    rfl

/-- The approval of a member that has not voted accepts the entry, if it makes a quorum. -/
theorem voteAndFinalize_approval (h : c.Awaits id e (w :: ws)) (now : Instant) :
    c.voteAndFinalize now id w true =
      if c.panel.isQuorum e.requiredWitnesses (e.accepts + 1) then
        .ok (true, (c.poll id [.approval now w]).accepting id)
      else .ok (false, c.poll id [.approval now w]) := by
  obtain ⟨e', hlater, haccepts, hrequired⟩ := h.poll now
  have hvote : c.submitVote now id w true none =
      .ok (Vote.cast w id true none now, c.poll id [.approval now w]) := by
    rw [h.submitVote_eq, h.poll_eq_update]
  have hquorum : (c.poll id [.approval now w]).hasQuorum e' =
      c.panel.isQuorum e.requiredWitnesses (e.accepts + 1) := by
    rw [hasQuorum, haccepts, hrequired, poll_eq]
  simp only [voteAndFinalize, hvote, checkConsensus, hlater.found, hquorum, Bind.bind, Except.bind]
  split
  · next hreached =>
    exact finalize_eq_ok_iff.2 ⟨e', hlater.found,
      .inr (.inl ⟨hlater.isOpen, hquorum.trans hreached, rfl, rfl⟩)⟩
  · rfl

/-- The approvals of members, each at a reading of the clock of its own. -/
def approvals (now : Clock) (ws : List String) : List Ballot :=
  ws.mapIdx fun k w => .approval (now.peek k) w

theorem approvals_cons (now : Clock) (w : String) (ws : List String) :
    approvals now (w :: ws) = .approval (now.peek 0) w :: approvals (now.take 1) ws := by
  simp only [approvals, List.mapIdx_cons, Supply.peek_take, Nat.add_comm 1]

end Chain

namespace Command

open Chain (approvals approvals_cons)

/-- A session in which some votes have been recorded, so that its chain has become another one. -/
def withVotes (s : Session) (count : Nat) (chain : Chain) : Session :=
  { s with ledger := { s.ledger with chain }, now := s.now.take count }

theorem withVotes_withVotes (s : Session) (m n : Nat) (c c' : Chain) :
    withVotes (withVotes s m c) n c' = withVotes s (m + n) c' := by
  simp only [withVotes, Supply.take_take]

variable {s : Session} {id w : String} {ws : List String} {e : Entry}

/-- The same of the vote in a session. -/
theorem voteAndFinalize_approval (h : s.ledger.chain.Awaits id e (w :: ws)) :
    s.voteAndFinalize id w true =
      let polled := s.ledger.chain.poll id [.approval (s.now.peek 0) w]
      if s.ledger.chain.panel.isQuorum e.requiredWitnesses (e.accepts + 1) then
        (.ok true, withVotes s 1 (polled.accepting id))
      else (.ok false, withVotes s 1 polled) := by
  simp only [Session.voteAndFinalize, Ledger.voteAndFinalize, Chain.voteAndFinalize_approval h]
  split <;> rfl

/-- Members approve until they are a quorum for the first time, and the entry is then accepted. -/
theorem collectFrom_of_quorum {k : Nat} (h : s.ledger.chain.Awaits id e ws) (hk : k < ws.length)
    (hquorum : s.ledger.chain.panel.isQuorum e.requiredWitnesses (e.accepts + (k + 1)) = true)
    (hleast : ∀ j < k,
      s.ledger.chain.panel.isQuorum e.requiredWitnesses (e.accepts + (j + 1)) = false)
    (size cast : Nat) :
    collectFrom id size cast ws s = (.ok (cast + (k + 1)), withVotes s (k + 1)
      ((s.ledger.chain.poll id (approvals s.now (ws.take (k + 1)))).accepting id)) := by
  induction ws generalizing s e k cast with
  | nil => cases hk
  | cons w ws ih =>
    have hvote := voteAndFinalize_approval h
    rw [List.take_succ_cons, approvals_cons]
    cases k with
    | zero =>
      rw [if_pos hquorum] at hvote
      simp only [collectFrom, hvote]
      rfl
    | succ k =>
      rw [if_neg (by rw [hleast 0 (Nat.succ_pos k)]; exact Bool.false_ne_true)] at hvote
      generalize hpolled : s.ledger.chain.poll id [.approval (s.now.peek 0) w] = polled at hvote
      obtain ⟨e', hlater, haccepts, hrequired⟩ := h.poll (s.now.peek 0)
      rw [hpolled] at hlater
      have hpanel : polled.panel = s.ledger.chain.panel := by rw [← hpolled, Chain.poll_eq]
      -- the others see one approval more, and the same panel
      have hsame : ∀ n, polled.panel.isQuorum e'.requiredWitnesses (e'.accepts + n) =
          s.ledger.chain.panel.isQuorum e.requiredWitnesses (e.accepts + (n + 1)) := by
        intro n
        rw [hpanel, haccepts, hrequired, Nat.add_right_comm, Nat.add_assoc]
      have hrest := ih (s := withVotes s 1 polled) (k := k)
        hlater (Nat.lt_of_succ_lt_succ hk) ((hsame _).trans hquorum)
        (fun j hj => (hsame _).trans (hleast (j + 1) (Nat.succ_lt_succ hj))) (cast + 1)
      simp only [collectFrom, hvote, hrest, withVotes_withVotes]
      rw [Nat.add_right_comm, Nat.add_assoc, Nat.add_comm 1, ← hpolled]
      rfl

/-- All members approve where they never are a quorum, and the entry stays open. -/
theorem collectFrom_of_none (h : s.ledger.chain.Awaits id e ws)
    (hnone : ∀ k < ws.length,
      s.ledger.chain.panel.isQuorum e.requiredWitnesses (e.accepts + (k + 1)) = false)
    (size cast : Nat) :
    collectFrom id size cast ws s = (.error (.integrity (.noQuorum id size)),
      withVotes s ws.length (s.ledger.chain.poll id (approvals s.now ws))) := by
  induction ws generalizing s e cast with
  | nil => rfl
  | cons w ws ih =>
    have hvote := voteAndFinalize_approval h
    rw [if_neg (by rw [hnone 0 (Nat.succ_pos _)]; exact Bool.false_ne_true)] at hvote
    generalize hpolled : s.ledger.chain.poll id [.approval (s.now.peek 0) w] = polled at hvote
    obtain ⟨e', hlater, haccepts, hrequired⟩ := h.poll (s.now.peek 0)
    rw [hpolled] at hlater
    have hpanel : polled.panel = s.ledger.chain.panel := by rw [← hpolled, Chain.poll_eq]
    have hrest := ih (s := withVotes s 1 polled) hlater
      (fun k hk => by
        show polled.panel.isQuorum _ _ = false
        rw [hpanel, haccepts, hrequired, Nat.add_right_comm, Nat.add_assoc]
        exact hnone (k + 1) (Nat.succ_lt_succ hk)) (cast + 1)
    simp only [collectFrom, hvote, hrest, withVotes_withVotes, approvals_cons, List.length_cons]
    rw [Nat.add_comm 1, ← hpolled]
    rfl

/-- The votes of a panel that is large enough accept an open entry without votes. -/
theorem exists_collectVotes (he : s.ledger.chain.entry? id = some e)
    (hopen : e.phase.isOpen = true) (hvotes : e.votes = [])
    (hsize : e.requiredWitnesses ≤ s.ledger.chain.panel.size) :
    ∃ n bs, collectVotes id s =
      (.ok n, withVotes s n ((s.ledger.chain.poll id bs).accepting id)) := by
  have hawaits := Chain.awaits_of_votes_eq_nil he hopen hvotes
  have haccepts := Entry.accepts_of_votes_eq_nil hvotes
  have hpos : 0 < s.ledger.chain.panel.size :=
    List.length_pos_iff.2 s.ledger.chain.panel.nodes_ne_nil
  -- all members together are a quorum, so that there is a first one
  have hall : s.ledger.chain.panel.isQuorum e.requiredWitnesses
      (e.accepts + (s.ledger.chain.panel.size - 1 + 1)) = true := by
    rw [haccepts, Nat.zero_add, Nat.sub_add_cancel hpos]
    exact Panel.isQuorum_size hsize
  have hfirst : ∃ k, s.ledger.chain.panel.isQuorum e.requiredWitnesses (e.accepts + (k + 1)) =
      true := ⟨_, hall⟩
  have hlt : Nat.find hfirst < s.ledger.chain.panel.nodes.length :=
    Nat.lt_of_le_of_lt (Nat.find_min' hfirst hall) (Nat.sub_lt hpos Nat.one_pos)
  have hcollect := collectFrom_of_quorum hawaits hlt (Nat.find_spec hfirst)
    (fun j hj => by simpa using Nat.find_min hfirst hj) s.ledger.chain.panel.size 0
  rw [Nat.zero_add] at hcollect
  exact ⟨_, _, hcollect⟩

/-- The votes of a panel that is too small leave an open entry as it is, but for the votes. -/
theorem collectVotes_of_lt (he : s.ledger.chain.entry? id = some e)
    (hopen : e.phase.isOpen = true) (hvotes : e.votes = [])
    (hsize : s.ledger.chain.panel.size < e.requiredWitnesses) :
    ∃ s', collectVotes id s =
      (.error (.integrity (.noQuorum id s.ledger.chain.panel.size)), s') := by
  refine ⟨_, collectFrom_of_none (Chain.awaits_of_votes_eq_nil he hopen hvotes) (fun k hk => ?_)
    _ _⟩
  have haccepts := Entry.accepts_of_votes_eq_nil hvotes
  have hfew : ¬ e.requiredWitnesses ≤ e.accepts + (k + 1) := by
    have hk : k < s.ledger.chain.panel.size := hk
    omega
  rw [Panel.isQuorum, decide_eq_false hfew, Bool.false_and]

/-- The votes of members as operations, each at a reading of the clock of its own. -/
def voting (now : Clock) (id : String) (ws : List String) : List Ledger.Action :=
  ws.mapIdx fun k w => .voteAndFinalize (now.peek k) id w true

theorem voting_cons (now : Clock) (id w : String) (ws : List String) :
    voting now id (w :: ws) =
      .voteAndFinalize (now.peek 0) id w true :: voting (now.take 1) id ws := by
  simp only [voting, List.mapIdx_cons, Supply.peek_take, Nat.add_comm 1]

theorem isQuiet_voting (now : Clock) (id : String) (ws : List String) :
    ∀ a ∈ voting now id ws, a.IsQuiet := by
  intro a ha
  obtain ⟨k, hk, rfl⟩ := List.mem_mapIdx.1 ha
  trivial

/-- Collecting votes is a run of the ledger in which members vote. -/
theorem exists_collectFrom_run (id : String) (size cast : Nat) (ws : List String) (s : Session) :
    ∃ voters count, (collectFrom id size cast ws s).2 =
      { s with ledger := s.ledger.run (voting s.now id voters), now := s.now.take count } := by
  induction ws generalizing s cast with
  | nil => exact ⟨[], 0, rfl⟩
  | cons w ws ih =>
    have hfirst : ∀ voters, s.ledger.run (voting s.now id (w :: voters)) =
        (Run.stateAfter s.ledger (s.ledger.voteAndFinalize (s.now.peek 0) id w true)).run
          (voting (s.now.take 1) id voters) := by
      intro voters
      rw [voting_cons]
      rfl
    rw [collectFrom, Session.voteAndFinalize]
    cases hvote : s.ledger.voteAndFinalize (s.now.peek 0) id w true with
    | error err =>
      refine ⟨[w], 0, ?_⟩
      rw [hfirst, hvote]
      rfl
    | ok r =>
      obtain ⟨accepted, l⟩ := r
      cases accepted with
      | true =>
        refine ⟨[w], 1, ?_⟩
        rw [hfirst, hvote]
        rfl
      | false =>
        obtain ⟨voters, count, heq⟩ := ih (cast + 1) { s.spend ⟨1, 0⟩ with ledger := l }
        refine ⟨w :: voters, 1 + count, heq.trans ?_⟩
        rw [hfirst, hvote, ← Supply.take_take]
        rfl

/-- The votes of a panel that is large enough are a run of the ledger that accepts an open entry
    without votes, and changes the entries and nothing else. -/
theorem exists_collectVotes_run (he : s.ledger.chain.entry? id = some e)
    (hopen : e.phase.isOpen = true) (hvotes : e.votes = [])
    (hsize : e.requiredWitnesses ≤ s.ledger.chain.panel.size) :
    ∃ n votes now entries,
      collectVotes id s = (.ok n, { s with ledger := s.ledger.run votes, now }) ∧
      (∀ a ∈ votes, a.IsQuiet) ∧
      (s.ledger.run votes).chain =
        { s.ledger.chain with entries, accepted := s.ledger.chain.accepted ++ [id] } := by
  obtain ⟨n, bs, hcollect⟩ := exists_collectVotes he hopen hvotes hsize
  obtain ⟨voters, count, hrun⟩ := exists_collectFrom_run id s.ledger.chain.panel.size 0
    s.ledger.chain.panel.nodes s
  rw [← collectVotes, hcollect] at hrun
  refine ⟨n, voting s.now id voters, s.now.take count,
    ((s.ledger.chain.poll id bs).accepting id).entries, ?_, isQuiet_voting s.now id voters, ?_⟩
  · rw [hcollect, ← hrun]
  · have hchain : (s.ledger.run (voting s.now id voters)).chain =
        (s.ledger.chain.poll id bs).accepting id :=
      (congrArg (fun s : Session => s.ledger.chain) hrun).symm
    rw [hchain, Chain.poll_eq]
    rfl

end Command

end WitnessLedger
