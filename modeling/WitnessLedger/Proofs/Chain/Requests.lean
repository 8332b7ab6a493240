import WitnessLedger.Proofs.Entry.Requests

/-!
# Requests to vote, made of a chain

A request that a chain is asked changes the entry that it names, if that takes the vote, and adds
the id of the entry to the accepted ones if the entry is accepted then.  What a list of requests
makes of a chain is therefore known from what it makes of each entry, and each request of the list
is answered as if it were the first.

## Key results

- `requested_eq`: a request is made of all entries, one of which it may name
- `count_accepted_requested`: an id is added where an open entry becomes accepted, and only there
- `replies_eq`: the answers to a list of requests, in any order
- `equallyVoted_polled`: the same requests in another order make the same of a chain
-/

namespace WitnessLedger.Chain

open Entry (DistinctIds)

/-- What a request is answered. -/
def reply (c : Chain) (r : VoteRequest) : Except LedgerError Unit :=
  match c.entry? r.entry with
  | some e => e.verdict c.panel r.witness
  | none => .error (.notFound (.entry r.entry))

/-- The chain after a request. -/
def requested (c : Chain) (now : Instant) (r : VoteRequest) : Chain :=
  Run.stateAfter c (c.voteAndFinalize now r.entry r.witness r.accept)

/-- What two chains have in common that differ only in the order and the times of votes, and in the
    order in which entries have been accepted. -/
structure EquallyVoted (c c' : Chain) : Prop where
  entries : List.Forall₂ Entry.EquallyVoted c.entries c'.entries
  accepted : c.accepted.Perm c'.accepted
  /-- Everything else is the same. -/
  core : c' = { c with entries := c'.entries, accepted := c'.accepted }

variable {c : Chain} {now : Instant} {r : VoteRequest}

/-! ## One request -/

theorem map_submitVote (c : Chain) (now : Instant) (r : VoteRequest) (reason : Option String) :
    (c.submitVote now r.entry r.witness r.accept reason).map (fun _ => ()) = c.reply r := by
  simp only [submitVote, findEntry, reply]
  cases he : c.entry? r.entry with
  | none => rfl
  | some e =>
    have hid := (of_entry?_eq_some he).2
    simp only [Bind.bind, Except.bind, Entry.verdict, hid]
    cases c.panel.contains r.witness <;> cases e.hasVoteFrom r.witness <;>
      cases e.phase.isTerminal <;> rfl

theorem reply_eq {e : Entry} (he : c.entry? r.entry = some e) :
    c.reply r = e.verdict c.panel r.witness := by
  rw [reply, he]

/-- A request fails, or its vote is recorded and counted. -/
theorem requested_cases (c : Chain) (now : Instant) (r : VoteRequest) :
    (∃ err, c.reply r = .error err ∧
      c.voteAndFinalize now r.entry r.witness r.accept = .error err) ∨
    ∃ e res, c.entry? r.entry = some e ∧ e.takes c.panel r.witness = true ∧
      c.voteAndFinalize now r.entry r.witness r.accept = .ok res := by
  have hreply := c.map_submitVote now r none
  cases h : c.submitVote now r.entry r.witness r.accept none with
  | ok res =>
    obtain ⟨vote, c'⟩ := res
    obtain ⟨e, he, hmem, hnew, hlive, rfl, rfl⟩ := submitVote_eq_ok_iff.1 h
    obtain ⟨done, hdone⟩ := exists_voteAndFinalize_eq_ok h
    exact .inr ⟨e, _, he, Entry.takes_iff.2 ⟨hmem, hnew, hlive⟩, hdone⟩
  | error err =>
    rw [h] at hreply
    exact .inl ⟨err, hreply.symm, by simp only [voteAndFinalize, h]; rfl⟩

/-- The answer says whether the request is done, or why it is refused. -/
theorem map_voteAndFinalize (c : Chain) (now : Instant) (r : VoteRequest) :
    (c.voteAndFinalize now r.entry r.witness r.accept).map (fun _ => ()) = c.reply r := by
  rcases c.requested_cases now r with ⟨err, hreply, h⟩ | ⟨e, res, he, htakes, h⟩
  · rw [h, hreply]
    rfl
  · rw [h, reply_eq he]
    exact (Entry.verdict_eq_ok_iff.2 htakes).symm

/-- An attempt to accept an entry that has just been voted on. -/
theorem act_finalize {id : String} {e : Entry} (he : c.entry? id = some e)
    (hphase : e.phase = .voting ∨ e.phase = .accepted) :
    c.act (.finalize id) =
      if e.phase = .voting ∧ c.hasQuorum e = true then c.accepting id else c := by
  rw [act, finalize, findEntry, he]
  rcases hphase with hphase | hphase <;> cases hquorum : c.hasQuorum e <;>
    simp only [hphase, hquorum, Bind.bind, Except.bind] <;> rfl

/-- A vote that is taken changes the entry that it names, and accepts it if it has become a
    quorum with it. -/
theorem requested_of_takes (now : Instant) (hd : DistinctIds c.entries) {e : Entry}
    (he : c.entry? r.entry = some e) (htakes : e.takes c.panel r.witness = true) :
    let e' := e.withVote (Vote.cast r.witness r.entry r.accept none now)
    (e'.phase = .voting ∨ e'.phase = .accepted) ∧
    c.requested now r =
      { c with entries := c.entries.map fun x => if x.id = r.entry then e'.counted c.panel else x
               accepted := if e'.phase = .voting ∧ c.hasQuorum e' = true
                 then c.accepted ++ [r.entry] else c.accepted } := by
  intro e'
  obtain ⟨hmember, hnew, hlive⟩ := Entry.takes_iff.1 htakes
  obtain ⟨hmem, hid⟩ := of_entry?_eq_some he
  have hphase : e'.phase = .voting ∨ e'.phase = .accepted := by
    rw [Entry.withVote_phase]
    revert hlive
    cases e.phase <;> decide
  refine ⟨hphase, ?_⟩
  -- the chain after the vote, before it is counted
  let c' := c.update r.entry (·.withVote (Vote.cast r.witness r.entry r.accept none now))
  have hvote : c.submitVote now r.entry r.witness r.accept none =
      .ok (Vote.cast r.witness r.entry r.accept none now, c') :=
    submitVote_eq_ok_iff.2 ⟨e, he, hmember, hnew, hlive, rfl, rfl⟩
  have he' : c'.entry? r.entry = some e' := by
    rw [entry?_update (fun x => Entry.withVote_id x _) he, if_pos rfl]
  have hentries : c'.entries = c.entries.map fun x => if x.id = r.entry then e' else x := by
    refine List.map_congr_left fun x hx => ?_
    split
    · next hx' => rw [Entry.eq_of_distinctIds hd hx hmem (hx'.trans hid.symm)]
    · rfl
  rw [requested, voteAndFinalize_eq hvote]
  by_cases hnow : e'.phase = .voting ∧ c.hasQuorum e' = true
  · have hcounted : e'.counted c.panel = e'.advanced .accepted :=
      (Entry.counted_eq hphase).trans (if_pos hnow)
    have hadvanced : (c'.update r.entry (·.advanced .accepted)).entries = c.entries.map fun x =>
        if x.id = r.entry then e'.advanced .accepted else x := by
      rw [update, hentries, List.map_map]
      refine List.map_congr_left fun x _ => ?_
      by_cases hx : x.id = r.entry
      · simp [hx, e', hid]
      · simp [hx]
    have hact : c'.act (.finalize r.entry) = c'.accepting r.entry :=
      (act_finalize he' hphase).trans (if_pos hnow)
    rw [hact, if_pos hnow, hcounted, ← hadvanced]
    rfl
  · have hcounted : e'.counted c.panel = e' := (Entry.counted_eq hphase).trans (if_neg hnow)
    have hact : c'.act (.finalize r.entry) = c' := (act_finalize he' hphase).trans (if_neg hnow)
    rw [hact, if_neg hnow, hcounted, ← hentries]
    rfl

/-- A request is made of all entries, one of which it may name. -/
theorem requested_eq (hd : DistinctIds c.entries) (now : Instant) (r : VoteRequest) :
    c.requested now r =
      { c with entries := c.entries.map fun e => e.requested c.panel now r
               accepted := (c.requested now r).accepted } := by
  rcases c.requested_cases now r with ⟨err, hreply, h⟩ | ⟨e, done, he, htakes, -⟩
  · -- no entry takes the vote
    have hkept : c.entries.map (fun e => e.requested c.panel now r) = c.entries := by
      refine (List.map_congr_left fun e he => ?_).trans (List.map_id _)
      rcases Entry.requested_eq_or c.panel e now r with ⟨hid, htakes⟩ | heq
      · rw [reply_eq ((entry?_eq_some_iff hd).2 ⟨he, hid.symm⟩),
          Entry.verdict_eq_ok_iff.2 htakes] at hreply
        cases hreply
      · exact heq
    rw [requested, h, Run.stateAfter_error, hkept]
  · obtain ⟨hmem, hid⟩ := of_entry?_eq_some he
    have hmap : c.entries.map (fun e => e.requested c.panel now r) = c.entries.map fun x =>
        if x.id = r.entry then
          (e.withVote (Vote.cast r.witness r.entry r.accept none now)).counted c.panel else x := by
      refine List.map_congr_left fun x hx => ?_
      by_cases hxid : x.id = r.entry
      · rw [Entry.eq_of_distinctIds hd hx hmem (hxid.trans hid.symm), if_pos hid, Entry.requested,
          if_pos ⟨hid.symm, htakes⟩, hid]
      · rw [if_neg hxid, Entry.requested_of_ne (Ne.symm hxid)]
    rw [(requested_of_takes now hd he htakes).2, hmap]

/-- The entry with an id, after a request. -/
theorem entry?_requested (hd : DistinctIds c.entries) (now : Instant) (r : VoteRequest)
    (id : String) :
    entry? (c.requested now r) id = (c.entry? id).map fun e => e.requested c.panel now r := by
  rw [requested_eq hd]
  exact Entry.find?_map (fun e _ => Entry.requested_id c.panel e now r) id

/-- How often an id is added to the accepted ones between two phases of its entry. -/
def gained (before after : Option Phase) : Nat :=
  if before.any (·.isOpen) && after == some .accepted then 1 else 0

@[simp] theorem gained_self (p : Option Phase) : gained p p = 0 := by
  cases p with
  | none => rfl
  | some p => cases p <;> rfl

/-- An id is gained once on the way. -/
theorem gained_add {a b c : Phase} (hab : Entry.Moves a b) (hbc : Entry.Moves b c) :
    gained (some a) (some b) + gained (some b) (some c) = gained (some a) (some c) := by
  rcases hab with rfl | ⟨hopen, rfl | rfl⟩
  · rw [gained_self, Nat.zero_add]
  · -- it is still open
    have hstill : Phase.voting.isOpen = true := rfl
    simp [gained, hopen, hstill]
  · rcases hbc with rfl | ⟨hnot, -⟩
    · rw [gained_self, Nat.add_zero]
    · cases hnot

/-- An id is added where an open entry becomes accepted, and only there. -/
theorem count_accepted_requested (hd : DistinctIds c.entries) (now : Instant) (r : VoteRequest)
    (id : String) :
    (c.requested now r).accepted.count id =
      c.accepted.count id + gained (c.phase? id) ((c.requested now r).phase? id) := by
  rcases c.requested_cases now r with ⟨err, -, h⟩ | ⟨e, res, he, htakes, -⟩
  · have hkept : c.requested now r = c := by rw [requested, h, Run.stateAfter_error]
    rw [hkept, gained_self, Nat.add_zero]
  · have hid := (of_entry?_eq_some he).2
    obtain ⟨hphase, heq⟩ := requested_of_takes now hd he htakes
    have hopen := e.withVote_phase_eq_voting_iff
      (Vote.cast r.witness r.entry r.accept none now)
    have hrequested : e.requested c.panel now r =
        (e.withVote (Vote.cast r.witness r.entry r.accept none now)).counted c.panel := by
      rw [Entry.requested, if_pos ⟨hid.symm, htakes⟩, hid]
    rw [phase?, phase?, entry?_requested hd, heq]
    generalize e.withVote (Vote.cast r.witness r.entry r.accept none now) = e' at *
    by_cases hsame : id = r.entry
    · rw [hsame, he, Option.map_some, Option.map_some, Option.map_some, hrequested]
      by_cases hnow : e'.phase = .voting ∧ c.hasQuorum e' = true
      · have hcounted : e'.counted c.panel = e'.advanced .accepted :=
          (Entry.counted_eq hphase).trans (if_pos hnow)
        have hgained : gained (some e.phase) (some .accepted) = 1 := by
          simp [gained, hopen.1 hnow.1]
        rw [if_pos hnow, hcounted, Entry.advanced_eq, hnow.1, List.count_append,
          List.count_singleton_self]
        exact congrArg _ hgained.symm
      · have hcounted : e'.counted c.panel = e' := (Entry.counted_eq hphase).trans (if_neg hnow)
        -- it stays open, or it has been accepted before
        have hgained : gained (some e.phase) (some e'.phase) = 0 := by
          rcases hphase with hphase | hphase
          · simp [gained, hphase]
          · simp [gained, ← hopen, hphase]
        rw [if_neg hnow, hcounted, hgained, Nat.add_zero]
    · have hother : ((c.entry? id).map fun e => e.requested c.panel now r) = c.entry? id := by
        refine (Option.map_congr fun x hx => ?_).trans Option.map_id'
        refine Entry.requested_of_ne ?_
        rw [(of_entry?_eq_some hx).2]
        exact Ne.symm hsame
      have hcount : [r.entry].count id = 0 := List.count_eq_zero.2 (by simpa using hsame)
      rw [hother, gained_self]
      split
      · rw [List.count_append, hcount]
      · rfl

/-! ## Requests one after the other -/

/-- The chain after some requests, each with the moment at which it is made. -/
def polled (c : Chain) (rs : List (Instant × VoteRequest)) : Chain :=
  rs.foldl (fun c q => c.requested q.1 q.2) c

theorem distinctIds_requested (hd : DistinctIds c.entries) (now : Instant) (r : VoteRequest) :
    DistinctIds (c.requested now r).entries := by
  rw [requested_eq hd]
  exact Entry.distinctIds_map (fun e _ => Entry.requested_id c.panel e now r) hd

theorem requested_panel (hd : DistinctIds c.entries) (now : Instant) (r : VoteRequest) :
    (c.requested now r).panel = c.panel := by
  rw [requested_eq hd]

/-- Requests are made of all entries. -/
theorem polled_eq (hd : DistinctIds c.entries) (rs : List (Instant × VoteRequest)) :
    c.polled rs =
      { c with entries := c.entries.map (Entry.tally c.panel rs)
               accepted := (c.polled rs).accepted } := by
  induction rs generalizing c with
  | nil =>
    have hkept : c.entries.map (Entry.tally c.panel []) = c.entries := List.map_id _
    rw [hkept]
    rfl
  | cons q rs ih =>
    have hstep : c.polled (q :: rs) = (c.requested q.1 q.2).polled rs := rfl
    rw [hstep, ih (distinctIds_requested hd q.1 q.2), requested_panel hd]
    rw [requested_eq hd]
    simp only [List.map_map]
    rfl

theorem entry?_polled (hd : DistinctIds c.entries) (rs : List (Instant × VoteRequest))
    (id : String) : entry? (c.polled rs) id = (c.entry? id).map (Entry.tally c.panel rs) := by
  rw [polled_eq hd]
  exact Entry.find?_map (fun e _ => Entry.tally_id c.panel rs e) id

theorem count_accepted_polled (hd : DistinctIds c.entries) (rs : List (Instant × VoteRequest))
    (id : String) :
    (c.polled rs).accepted.count id =
      c.accepted.count id + gained (c.phase? id) ((c.polled rs).phase? id) := by
  induction rs generalizing c with
  | nil =>
    have hkept : c.polled [] = c := rfl
    rw [hkept, gained_self, Nat.add_zero]
  | cons q rs ih =>
    have hstep : c.polled (q :: rs) = (c.requested q.1 q.2).polled rs := rfl
    have hd' := distinctIds_requested hd q.1 q.2
    rw [hstep, ih hd', count_accepted_requested hd, Nat.add_assoc, phase?, phase?, phase?,
      entry?_polled hd', entry?_requested hd, requested_panel hd]
    cases c.entry? id with
    | none => rfl
    | some e => exact congrArg _ (gained_add (Entry.moves_requested ..) (Entry.moves_tally ..))

/-- What the requests are answered, each with its answer. -/
def replies (c : Chain) (rs : List (Instant × VoteRequest)) :
    List (VoteRequest × Except LedgerError Unit) :=
  Run.chronicle (fun c q => c.requested q.1 q.2) (fun c q => [(q.2,
    (c.voteAndFinalize q.1 q.2.entry q.2.witness q.2.accept).map fun _ => ())]) c rs

/-- A request does not change what another one is answered. -/
theorem reply_requested (hd : DistinctIds c.entries) (now : Instant) {r' : VoteRequest}
    (h : (r.entry, r.witness) ≠ (r'.entry, r'.witness)) :
    (c.requested now r).reply r' = c.reply r' := by
  rw [reply, reply, entry?_requested hd, requested_panel hd]
  cases he : c.entry? r'.entry with
  | none => rfl
  | some e =>
    refine Entry.verdict_requested fun hid hw => h ?_
    rw [hid, (of_entry?_eq_some he).2, hw]

/-- Each request is answered as if it were the first. -/
theorem replies_eq (hd : DistinctIds c.entries) (rs : List (Instant × VoteRequest))
    (h : ((rs.map Prod.snd).map fun r => (r.entry, r.witness)).Nodup) :
    c.replies rs = (rs.map Prod.snd).map fun r => (r, c.reply r) := by
  induction rs generalizing c with
  | nil => rfl
  | cons q rs ih =>
    rw [List.map_cons, List.map_cons, List.nodup_cons] at h
    have hothers : (rs.map Prod.snd).map (fun r => (r, (c.requested q.1 q.2).reply r)) =
        (rs.map Prod.snd).map fun r => (r, c.reply r) := by
      refine List.map_congr_left fun r hr => ?_
      rw [reply_requested hd]
      intro hsame
      exact h.1 (hsame ▸ List.mem_map_of_mem hr)
    rw [List.map_cons, List.map_cons, ← hothers, ← ih (distinctIds_requested hd q.1 q.2) h.2,
      ← map_voteAndFinalize c q.1]
    rfl

variable {rs rs' : List (Instant × VoteRequest)}

/-- The same requests in another order make the same of a chain, up to the order of votes and of
    acceptances, whenever each of them is made. -/
theorem equallyVoted_polled (hd : DistinctIds c.entries)
    (hperm : (rs.map Prod.snd).Perm (rs'.map Prod.snd))
    (h : ((rs.map Prod.snd).map fun r => (r.entry, r.witness)).Nodup) :
    EquallyVoted (c.polled rs) (c.polled rs') := by
  have hentry : ∀ e : Entry, Entry.EquallyVoted (e.tally c.panel rs) (e.tally c.panel rs') :=
    fun e => Entry.equallyVoted_tally hperm h
  constructor
  case entries =>
    rw [polled_eq hd rs, polled_eq hd rs', List.forall₂_map_left_iff, List.forall₂_map_right_iff]
    exact List.forall₂_same.2 fun e _ => hentry e
  case accepted =>
    refine List.perm_iff_count.2 fun id => ?_
    rw [count_accepted_polled hd, count_accepted_polled hd, phase?, phase?, phase?,
      entry?_polled hd, entry?_polled hd]
    cases c.entry? id with
    | none => rfl
    | some e =>
      have hphase : (e.tally c.panel rs').phase = (e.tally c.panel rs).phase := by
        rw [(hentry e).core]
      simp only [Option.map_some, hphase]
  case core =>
    rw [polled_eq hd rs, polled_eq hd rs']

/-- The same requests in another order are answered the same. -/
theorem perm_replies (hd : DistinctIds c.entries)
    (hperm : (rs.map Prod.snd).Perm (rs'.map Prod.snd))
    (h : ((rs.map Prod.snd).map fun r => (r.entry, r.witness)).Nodup) :
    (c.replies rs).Perm (c.replies rs') := by
  rw [replies_eq hd rs h, replies_eq hd rs' ((hperm.map _).nodup_iff.1 h)]
  exact hperm.map _

end WitnessLedger.Chain
