import WitnessLedger.Proofs.Command.Quorum
import Mathlib.Order.Nat

/-!
# The least quorum

Votes on a new entry are collected one by one, each with a look at whether they suffice, so that
they stop at the least number that does.  All that they leave is on the entry: the approvals of the
members that were asked, in their order, and whether it is accepted.

## Key results

- `Panel.isQuorum_iff`: what a quorum has to be, in number and as a share
- `Chain.poll_approvals`: what the approvals of different members leave
- `Command.collectVotes_of_le`, `Command.collectVotes_of_few`: the votes of a panel that is large
  enough, and of one that is too small
- `Command.collectVotes_run`: this for new entries on the ledger after any run
-/

namespace WitnessLedger

/-- What a quorum has to be, in number and as a share. -/
theorem Panel.isQuorum_iff {p : Panel} {required accepts : Nat} :
    p.isQuorum required accepts = true ↔
      required ≤ accepts ∧ p.threshold.le (p.share accepts) = true := by
  rw [isQuorum, Bool.and_eq_true, decide_eq_true_iff]

/-- An entry with the approvals of some members, in their order and each at a reading of the clock
    of its own, and in a phase. -/
def Entry.approvedBy (e : Entry) (now : Clock) (members : List String) (phase : Phase) : Entry :=
  { e with
    votes := e.votes ++ members.mapIdx fun k w => Vote.cast w e.id true none (now.peek k)
    phase }

namespace Entry

variable {e : Entry} {now : Clock}

/-- The first approval opens the vote, and later ones leave it open. -/
theorem withVote_approval (hopen : e.phase.isOpen = true) (w : String) :
    e.withVote (Vote.cast w e.id true none (now.peek 0)) = e.approvedBy now [w] .voting := by
  rw [withVote_eq, approvedBy]
  cases hphase : e.phase with
  | proposed | voting => rfl
  | accepted | finalized | rejected => simp [hphase, Phase.isOpen] at hopen

/-- The approvals of some members and then of others are those of all of them. -/
theorem approvedBy_approvedBy (ws ws' : List String) (phase phase' : Phase) :
    (e.approvedBy now ws phase).approvedBy (now.take ws.length) ws' phase' =
      e.approvedBy now (ws ++ ws') phase' := by
  simp only [approvedBy, List.mapIdx_append, List.append_assoc, Supply.peek_take,
    Nat.add_comm ws.length]

theorem advanced_approvedBy (ws : List String) :
    (e.approvedBy now ws .voting).advanced .accepted = e.approvedBy now ws .accepted :=
  advanced_of_isOpen rfl (.inl rfl)

end Entry

namespace Chain

open Entry (DistinctIds)

variable {c : Chain} {id w : String} {ws : List String} {e e' : Entry}

/-- Where ids are distinct, a change of one entry puts another one in its place. -/
theorem update_eq_replace (hd : DistinctIds c.entries) (he : c.entry? id = some e)
    (f : Entry → Entry) : c.update id f = c.update id fun _ => f e := by
  obtain ⟨hmem, hid⟩ := of_entry?_eq_some he
  unfold update
  congr 1
  refine List.map_congr_left fun x hx => ?_
  by_cases hxid : x.id = id
  · rw [Entry.eq_of_distinctIds hd hx hmem (hxid.trans hid.symm)]
  · rw [if_neg hxid, if_neg hxid]

/-- A change of the entry that has been put in a place is one of the entry that is put there. -/
theorem update_replace (hid : e.id = id) (f : Entry → Entry) :
    (c.update id fun _ => e).update id f = c.update id fun _ => f e := by
  unfold update
  simp only [List.map_map]
  congr 1
  refine List.map_congr_left fun x _ => ?_
  by_cases hxid : x.id = id
  · simp [hxid, hid]
  · simp [hxid]

theorem distinctIds_replace (hd : DistinctIds c.entries) (hid : e.id = id) :
    DistinctIds (c.update id fun _ => e).entries := by
  refine Entry.distinctIds_map (fun x _ => ?_) hd
  split
  · next hxid => rw [hid, hxid]
  · rfl

theorem entry?_replace (he : c.entry? id = some e) (hid : e'.id = id) :
    entry? (c.update id fun _ => e') id = some e' := by
  have hids : ∀ x ∈ c.entries, (if x.id = id then e' else x).id = x.id := by
    intro x _
    split
    · next hxid => rw [hid, hxid]
    · rfl
  have hfound : c.entries.find? (·.id == id) = some e := he
  unfold entry? update
  rw [Entry.find?_map hids, hfound, Option.map_some, if_pos (of_entry?_eq_some he).2]

/-- An entry that waits for some members waits for the first ones of them. -/
theorem Awaits.take (h : c.Awaits id e ws) (k : Nat) : c.Awaits id e (ws.take k) where
  found := h.found
  isOpen := h.isOpen
  nodup := h.nodup.sublist (List.take_sublist k ws)
  member w hw := h.member w (List.mem_of_mem_take hw)
  silent w hw := h.silent w (List.mem_of_mem_take hw)

/-- The approval of a member that has not voted. -/
theorem poll_approval (hd : DistinctIds c.entries) (h : c.Awaits id e (w :: ws)) (now : Clock) :
    c.poll id [.approval (now.peek 0) w] =
      c.update id fun _ => e.approvedBy now [w] .voting := by
  have hid := (of_entry?_eq_some h.found).2
  rw [h.poll_eq_update, update_eq_replace hd h.found, ← hid, Entry.withVote_approval h.isOpen]

/-- The approvals of different members that have not voted. -/
theorem poll_approvals (hd : DistinctIds c.entries) (h : c.Awaits id e ws) (hne : ws ≠ [])
    (now : Clock) :
    c.poll id (approvals now ws) = c.update id fun _ => e.approvedBy now ws .voting := by
  induction ws generalizing c e now with
  | nil => exact absurd rfl hne
  | cons w ws ih =>
    have hfirst := poll_approval hd h now
    cases ws with
    | nil => exact hfirst
    | cons x ws =>
      have hid : (e.approvedBy now [w] .voting).id = id := (of_entry?_eq_some h.found).2
      -- the others are waited for by the entry with the first approval
      obtain ⟨e', hlater, -⟩ := h.poll (now.peek 0)
      rw [hfirst] at hlater
      obtain rfl : e.approvedBy now [w] .voting = e' :=
        Option.some.inj ((entry?_replace h.found hid).symm.trans hlater.found)
      have hcons : c.poll id (approvals now (w :: x :: ws)) =
          (c.poll id [.approval (now.peek 0) w]).poll id (approvals (now.take 1) (x :: ws)) := by
        rw [approvals_cons]
        rfl
      have hall : (e.approvedBy now [w] .voting).approvedBy (now.take 1) (x :: ws) .voting =
          e.approvedBy now (w :: x :: ws) .voting :=
        Entry.approvedBy_approvedBy [w] (x :: ws) .voting .voting
      rw [hcons, hfirst, ih (distinctIds_replace hd hid) hlater (List.cons_ne_nil x ws),
        update_replace hid, hall]

/-- Once approvals are a quorum, the entry is accepted. -/
theorem accepting_poll_approvals (hd : DistinctIds c.entries) (h : c.Awaits id e ws)
    (hne : ws ≠ []) (now : Clock) :
    (c.poll id (approvals now ws)).accepting id =
      { c.update id fun _ => e.approvedBy now ws .accepted with
        accepted := c.accepted ++ [id] } := by
  have hid : (e.approvedBy now ws .voting).id = id := (of_entry?_eq_some h.found).2
  rw [accepting, poll_approvals hd h hne, update_replace hid, Entry.advanced_approvedBy]
  rfl

end Chain

namespace Command

open Entry (DistinctIds)

variable {s : Session} {id : String} {e : Entry}

/-- The votes of a panel that is large enough accept a new entry, and stop at the least number that
    does. -/
theorem collectVotes_of_le (hd : DistinctIds s.ledger.chain.entries)
    (he : s.ledger.chain.entry? id = some e) (hopen : e.phase.isOpen = true)
    (hvotes : e.votes = []) (hsize : e.requiredWitnesses ≤ s.ledger.chain.panel.size) :
    ∃ k ≤ s.ledger.chain.panel.size,
      IsLeast {k | s.ledger.chain.panel.isQuorum e.requiredWitnesses k = true} k ∧
      collectVotes id s = (.ok k, withVotes s k
        { s.ledger.chain.update id fun _ =>
            e.approvedBy s.now (s.ledger.chain.panel.nodes.take k) .accepted with
          accepted := s.ledger.chain.accepted ++ [id] }) := by
  have hall : s.ledger.chain.panel.isQuorum e.requiredWitnesses s.ledger.chain.panel.size = true :=
    Panel.isQuorum_size hsize
  have hsome : ∃ k, s.ledger.chain.panel.isQuorum e.requiredWitnesses k = true := ⟨_, hall⟩
  have hleast := Nat.isLeast_find hsome
  generalize Nat.find hsome = k at hleast
  have hle : k ≤ s.ledger.chain.panel.size := hleast.2 hall
  -- an entry needs an approval, so that at least one member is asked
  have hpos : 0 < k :=
    Nat.lt_of_lt_of_le e.kind.requiredWitnesses_pos (Panel.isQuorum_iff.1 hleast.1).1
  obtain ⟨j, rfl⟩ := Nat.exists_eq_succ_of_ne_zero (Nat.ne_of_gt hpos)
  have hawaits := Chain.awaits_of_votes_eq_nil he hopen hvotes
  have haccepts := Entry.accepts_of_votes_eq_nil hvotes
  have hcollect := collectFrom_of_quorum (k := j) hawaits hle
    (by rw [haccepts, Nat.zero_add]; exact hleast.1)
    (fun i hi => by
      rw [haccepts, Nat.zero_add, ← Bool.not_eq_true]
      exact fun hquorum => absurd (hleast.2 hquorum) (by omega))
    s.ledger.chain.panel.size 0
  have hasked : s.ledger.chain.panel.nodes.take (j + 1) ≠ [] :=
    List.ne_nil_of_length_pos (by rw [List.length_take_of_le hle]; exact hpos)
  rw [Nat.zero_add, Chain.accepting_poll_approvals hd (hawaits.take _) hasked] at hcollect
  exact ⟨j + 1, hle, hleast, hcollect⟩

/-- The votes of a panel that is too small are all collected, and the vote on the entry stays
    open. -/
theorem collectVotes_of_few (hd : DistinctIds s.ledger.chain.entries)
    (he : s.ledger.chain.entry? id = some e) (hopen : e.phase.isOpen = true)
    (hvotes : e.votes = []) (hsize : s.ledger.chain.panel.size < e.requiredWitnesses) :
    collectVotes id s = (.error (.integrity (.noQuorum id s.ledger.chain.panel.size)),
      withVotes s s.ledger.chain.panel.size (s.ledger.chain.update id fun _ =>
        e.approvedBy s.now s.ledger.chain.panel.nodes .voting)) := by
  have hawaits := Chain.awaits_of_votes_eq_nil he hopen hvotes
  have haccepts := Entry.accepts_of_votes_eq_nil hvotes
  have hnone : ∀ k < s.ledger.chain.panel.nodes.length,
      s.ledger.chain.panel.isQuorum e.requiredWitnesses (e.accepts + (k + 1)) = false := by
    intro k hk
    rw [haccepts, Nat.zero_add, ← Bool.not_eq_true, Panel.isQuorum_iff]
    exact fun hquorum => absurd hsize (Nat.not_lt.2 (Nat.le_trans hquorum.1 hk))
  have hcollect := collectFrom_of_none hawaits hnone s.ledger.chain.panel.size 0
  rw [Chain.poll_approvals hd hawaits s.ledger.chain.panel.nodes_ne_nil] at hcollect
  exact hcollect

/-- On the ledger after any run, the votes on a proposed entry without votes are collected as
    follows.  If the panel has at least as many members as the entry needs, they stop at the least
    number that the entry needs and whose share of the panel reaches the threshold: so many members,
    the first ones in their order and each at the next reading of the clock, have approved the
    entry, and it is accepted.  If the panel has fewer, there is no quorum: all members have
    approved the entry, and the vote on it stays open.  In both cases no other entry has changed,
    nor anything else but the list of accepted ids. -/
theorem collectVotes_run (panel : Panel) (rule : ForkRule) (capacity significance : Nat)
    (scope : SortedSet) (as : List Ledger.Action) (suffixes : Suffixes) (now : Clock) :
    let c := ((Ledger.new panel rule capacity significance scope).run as).chain
    let s : Session := ⟨(Ledger.new panel rule capacity significance scope).run as, suffixes, now⟩
    ∀ id e, c.entry? id = some e → e.phase = .proposed → e.votes = [] →
      (e.requiredWitnesses ≤ panel.size → ∃ k ≤ panel.size,
        IsLeast {k | e.requiredWitnesses ≤ k ∧ panel.threshold.le (panel.share k) = true} k ∧
        collectVotes id s = (.ok k, withVotes s k
          { c.update id fun _ => e.approvedBy now (panel.nodes.take k) .accepted with
            accepted := c.accepted ++ [id] })) ∧
      (panel.size < e.requiredWitnesses →
        collectVotes id s = (.error (.integrity (.noQuorum id panel.size)),
          withVotes s panel.size
            (c.update id fun _ => e.approvedBy now panel.nodes .voting))) := by
  intro c s id e he hphase hvotes
  have hchain : c = (Chain.new panel rule).run
      ((Ledger.new panel rule capacity significance scope).chainRun as) := Ledger.chain_run _ as
  have hpanel : s.ledger.chain.panel = panel := by
    show c.panel = panel
    rw [hchain, Chain.run_panel]
    rfl
  have hd : DistinctIds s.ledger.chain.entries := by
    show DistinctIds c.entries
    rw [hchain]
    exact Chain.distinctIds_run panel rule _
  have hopen : e.phase.isOpen = true := by rw [hphase]; rfl
  -- the panel that the ledger starts with is still the one of its chain
  simp only [← Panel.isQuorum_iff]
  rw [← hpanel]
  exact ⟨collectVotes_of_le hd he hopen hvotes, collectVotes_of_few hd he hopen hvotes⟩

/-- A credential, which needs two members, and a change of a charter, which needs five. -/
def proposals : List Ledger.Action :=
  [ .propose .epoch "x1" .credentialIssuance
      (.plain (.credentialIssuance ⟨"lct:a", "lct:b", "member"⟩)) .root,
    .propose .epoch "x2" .charterAmendment
      (.plain (.charterAmendment ⟨"soc:a", "quorum", "2/3"⟩)) .root ]

/-- Two of three members, whose share is above three fifths, accept the credential; all three are
    not enough for the change of the charter. -/
theorem collectVotes_proposals :
    let l := (Ledger.new Chain.trio .lowestEntryId 10 5 .empty).run proposals
    let s : Session := ⟨l, .listed [], .ticking⟩
    let credential := "act:credential_issuance:x1"
    let amendment := "act:charter_amendment:x2"
    (∃ e, l.chain.entry? credential = some e ∧ e.phase = .proposed ∧ e.votes = [] ∧
      e.requiredWitnesses ≤ Chain.trio.size ∧
      ∃ t, collectVotes credential s = (.ok 2, t) ∧
        t.ledger.chain.entry? credential = some (e.approvedBy .ticking ["w1", "w2"] .accepted)) ∧
    (∃ e, l.chain.entry? amendment = some e ∧ e.phase = .proposed ∧ e.votes = [] ∧
      Chain.trio.size < e.requiredWitnesses ∧
      ∃ t, collectVotes amendment s = (.error (.integrity (.noQuorum amendment 3)), t) ∧
        t.ledger.chain.entry? amendment =
          some (e.approvedBy .ticking ["w1", "w2", "w3"] .voting)) := by
  intro l s credential amendment
  have hcredential : (l.chain.entry? credential).map
      (fun e => (e.phase, e.votes, e.requiredWitnesses)) = some (.proposed, [], 2) := by
    decide +kernel
  have hamendment : (l.chain.entry? amendment).map
      (fun e => (e.phase, e.votes, e.requiredWitnesses)) = some (.proposed, [], 5) := by
    decide +kernel
  have hshare : Chain.trio.threshold.le (Chain.trio.share 2) = true := by decide +kernel
  have hcollect := collectVotes_run Chain.trio .lowestEntryId 10 5 .empty proposals (.listed [])
    .ticking
  obtain ⟨e, he, heq⟩ := Option.map_eq_some_iff.1 hcredential
  obtain ⟨e', he', heq'⟩ := Option.map_eq_some_iff.1 hamendment
  simp only [Prod.mk.injEq] at heq heq'
  obtain ⟨hphase, hvotes, hrequired⟩ := heq
  obtain ⟨hphase', hvotes', hrequired'⟩ := heq'
  constructor
  · have hsize : e.requiredWitnesses ≤ Chain.trio.size := by rw [hrequired]; decide
    obtain ⟨k, -, hleast, hresult⟩ := (hcollect _ e he hphase hvotes).1 hsize
    obtain rfl : k = 2 :=
      Nat.le_antisymm (hleast.2 ⟨Nat.le_of_eq hrequired, hshare⟩) (hrequired ▸ hleast.1.1)
    exact ⟨e, he, hphase, hvotes, hsize, _, hresult,
      Chain.entry?_replace he (Chain.of_entry?_eq_some he).2⟩
  · have hsize : Chain.trio.size < e'.requiredWitnesses := by rw [hrequired']; decide
    have hresult := (hcollect _ e' he' hphase' hvotes').2 hsize
    exact ⟨e', he', hphase', hvotes', hsize, _, hresult,
      Chain.entry?_replace he' (Chain.of_entry?_eq_some he').2⟩

end Command

end WitnessLedger
