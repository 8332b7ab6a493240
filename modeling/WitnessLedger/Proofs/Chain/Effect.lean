import WitnessLedger.Proofs.Chain.Action
import WitnessLedger.Proofs.Chain.Index
import WitnessLedger.Proofs.Except

/-!
# Effects of actions

All that an action can do to a chain, with the guard under which it does it.  What every run keeps
is shown by going through these cases; nothing else opens the operations.

## Key results

- `submitVote_eq_ok_iff`, `finalize_eq_ok_iff`, `reject_eq_ok_iff`: when an operation succeeds
- `act_effect`: each action has one of the effects
- `Effect.panel_eq`: the panel stays
-/

namespace WitnessLedger.Chain

/-- The chain after an entry has been accepted. -/
def accepting (c : Chain) (id : String) : Chain :=
  { c.update id (·.advanced .accepted) with accepted := c.accepted ++ [id] }

/-- The chain after an entry has been rejected. -/
def rejecting (c : Chain) (id : String) : Chain :=
  { c.update id (·.advanced .rejected) with pending := c.pending.filter (· != id) }

/-- The chain after its accepted entries have been sealed. -/
def sealing (c : Chain) (now : Instant) : Chain :=
  let block := c.blockOf now c.sealable
  { c with entries := c.entries.map (Entry.overwritten block.entries), accepted := []
           blocks := c.blocks ++ [block]
           pending := c.pending.filter fun id => !(c.sealable.any (·.id == id)) }

/-- What an action can do to a chain. -/
inductive Effect (c : Chain) : Action → Chain → Prop
  /-- The action fails or finds nothing to do. -/
  | idle {a : Action} (hdraws : c.draws a = []) (hproposes : c.proposes a = []) : Effect c a c
  | proposed {now : Instant} {suffix : String} {kind : EntryKind} {content : Content}
      {level : Level} (hvalid : content.admit kind = .ok ()) :
      Effect c (.propose now suffix kind content level)
        (c.push (c.draft now suffix kind content level))
  | voted {now : Instant} {id witness : String} {accept : Bool} {reason : Option String}
      {e : Entry} (he : c.entry? id = some e) (hmem : c.panel.contains witness = true)
      (hnew : e.hasVoteFrom witness = false) (hlive : e.phase.isTerminal = false) :
      Effect c (.submitVote now id witness accept reason)
        (c.update id (·.withVote (Vote.cast witness id accept reason now)))
  | accepted {id : String} {e : Entry} (he : c.entry? id = some e)
      (hopen : e.phase.isOpen = true) (hquorum : c.hasQuorum e = true) :
      Effect c (.finalize id) (c.accepting id)
  | rejected {id : String} {e : Entry} (he : c.entry? id = some e)
      (hopen : e.phase.isOpen = true)
      (hlost : c.panel.isQuorum e.requiredWitnesses (c.bestCase e) = false) :
      Effect c (.reject id) (c.rejecting id)
  | sealed {now : Instant} (hsome : c.sealable ≠ []) : Effect c (.sealBlock now) (c.sealing now)
  /-- No accepted entry is left to seal. -/
  | cleared {now : Instant} (hnone : c.sealable = []) :
      Effect c (.sealBlock now) { c with accepted := [] }
  | settled {transfer : String} :
      Effect c (.recordSettlement transfer) (c.recordSettlement transfer)

theorem act_propose {c : Chain} {kind : EntryKind} {content : Content} (now : Instant)
    (suffix : String) (level : Level) (h : content.admit kind = .ok ()) :
    c.act (.propose now suffix kind content level) =
      c.push (c.draft now suffix kind content level) := by
  rw [act, propose_of_admit now suffix level h]
  rfl

theorem propose_of_not_admit {c : Chain} {kind : EntryKind} {content : Content} {err : LedgerError}
    (now : Instant) (suffix : String) (level : Level) (h : content.admit kind = .error err) :
    c.propose now suffix kind content level = .error err := by
  simp only [propose, h]
  rfl

theorem sealBlock_eq (c : Chain) (now : Instant) :
    c.sealBlock now =
      if c.sealable = [] then (none, { c with accepted := [] })
      else (some (c.blockOf now c.sealable), c.sealing now) := by
  simp only [sealBlock]
  split
  · next h => rw [if_pos h]
  · next members h =>
    rw [if_neg h, foldl_store, sealing]

theorem submitVote_eq_ok_iff {c c' : Chain} {now : Instant} {id witness : String} {accept : Bool}
    {reason : Option String} {vote : Vote} :
    c.submitVote now id witness accept reason = .ok (vote, c') ↔
      ∃ e, c.entry? id = some e ∧ c.panel.contains witness = true ∧
        e.hasVoteFrom witness = false ∧ e.phase.isTerminal = false ∧
        vote = Vote.cast witness id accept reason now ∧ c' = c.update id (·.withVote vote) := by
  simp only [submitVote, findEntry]
  cases c.entry? id with
  | none => simp [Bind.bind, Except.bind]
  | some e =>
    simp only [Bind.bind, Except.bind, Option.some.injEq, exists_eq_left']
    cases c.panel.contains witness <;> cases e.hasVoteFrom witness <;>
      cases e.phase.isTerminal <;>
      simp [throw, throwThe, MonadExceptOf.throw, pure, Except.pure, eq_comm]
    grind

theorem finalize_eq_ok_iff {c c' : Chain} {id : String} {done : Bool} :
    c.finalize id = .ok (done, c') ↔
      ∃ e, c.entry? id = some e ∧
        (((e.phase = .accepted ∨ e.phase = .finalized) ∧ done = true ∧ c' = c) ∨
          (e.phase.isOpen = true ∧ c.hasQuorum e = true ∧ done = true ∧ c' = c.accepting id) ∨
          (e.phase.isOpen = true ∧ c.hasQuorum e = false ∧ done = false ∧ c' = c)) := by
  simp only [finalize, findEntry]
  cases c.entry? id with
  | none => simp [Bind.bind, Except.bind]
  | some e =>
    simp only [Bind.bind, Except.bind, Option.some.injEq, exists_eq_left']
    cases hphase : e.phase <;> cases hq : c.hasQuorum e <;>
      simp [throw, throwThe, MonadExceptOf.throw, pure, Except.pure, Phase.isOpen, eq_comm]
    all_goals exact fun _ => Iff.rfl

theorem reject_eq_ok_iff {c c' : Chain} {id : String} :
    c.reject id = .ok c' ↔
      ∃ e, c.entry? id = some e ∧ e.phase.isOpen = true ∧
        c.panel.isQuorum e.requiredWitnesses (c.bestCase e) = false ∧ c' = c.rejecting id := by
  simp only [reject, findEntry]
  cases c.entry? id with
  | none => simp [Bind.bind, Except.bind]
  | some e =>
    simp only [Bind.bind, Except.bind, Option.some.injEq, exists_eq_left']
    cases e.phase.isOpen <;> cases c.panel.isQuorum e.requiredWitnesses (c.bestCase e) <;>
      simp [throw, throwThe, MonadExceptOf.throw, pure, Except.pure, eq_comm]
    rfl

/-- An entry that has just been voted on is open or accepted. -/
theorem entry?_of_submitVote {c c' : Chain} {now : Instant} {id witness : String} {accept : Bool}
    {reason : Option String} {vote : Vote}
    (h : c.submitVote now id witness accept reason = .ok (vote, c')) :
    ∃ e, c'.entry? id = some e ∧ (e.phase = .voting ∨ e.phase = .accepted) := by
  obtain ⟨e, he, -, -, hlive, -, hc⟩ := submitVote_eq_ok_iff.1 h
  refine ⟨e.withVote vote, ?_, ?_⟩
  · rw [hc, entry?_update (fun x => Entry.withVote_id x vote) he, if_pos rfl]
  · rw [Entry.withVote_phase]
    revert hlive
    cases e.phase <;> decide

/-- An attempt to accept an entry that has just been voted on does not fail, and changes nothing
    where the entry has no quorum. -/
theorem exists_finalize_eq_ok {c : Chain} {id : String} {e : Entry} (he : c.entry? id = some e)
    (hphase : e.phase = .voting ∨ e.phase = .accepted) :
    ∃ done c', c.finalize id = .ok (done, c') ∧ (c.hasQuorum e = false → c' = c) := by
  simp only [finalize_eq_ok_iff, he, Option.some.injEq, exists_eq_left']
  rcases hphase with hphase | hphase
  · have hopen : e.phase.isOpen = true := by rw [hphase]; rfl
    cases hquorum : c.hasQuorum e with
    | true => exact ⟨true, _, .inr (.inl ⟨hopen, rfl, rfl, rfl⟩), fun h => by cases h⟩
    | false => exact ⟨false, c, .inr (.inr ⟨hopen, rfl, rfl, rfl⟩), fun _ => rfl⟩
  · exact ⟨true, c, .inl ⟨.inl hphase, rfl, rfl⟩, fun _ => rfl⟩

/-- A vote that is recorded is then counted without failing, which is an attempt to accept. -/
theorem exists_voteAndFinalize_eq_ok {c c' : Chain} {now : Instant} {id witness : String}
    {accept : Bool} {vote : Vote} (h : c.submitVote now id witness accept none = .ok (vote, c')) :
    ∃ done, c.voteAndFinalize now id witness accept = .ok (done, c'.act (.finalize id)) := by
  obtain ⟨e, he, hphase⟩ := entry?_of_submitVote h
  obtain ⟨done, c'', hfinalize, hnone⟩ := exists_finalize_eq_ok he hphase
  have heq : c.voteAndFinalize now id witness accept =
      if c'.hasQuorum e then c'.finalize id else .ok (false, c') := by
    simp only [voteAndFinalize, h, checkConsensus, he, Bind.bind, Except.bind]
    rfl
  rw [heq, act, hfinalize]
  split
  · exact ⟨done, rfl⟩
  · next hquorum => exact ⟨false, by rw [Run.stateAfter_ok, hnone (by simpa using hquorum)]⟩

/-- A vote that is recorded and then counted is a vote and an attempt to accept. -/
theorem voteAndFinalize_eq {c c' : Chain} {now : Instant} {id witness : String} {accept : Bool}
    {vote : Vote} (h : c.submitVote now id witness accept none = .ok (vote, c')) :
    Run.stateAfter c (c.voteAndFinalize now id witness accept) = c'.act (.finalize id) := by
  obtain ⟨done, heq⟩ := exists_voteAndFinalize_eq_ok h
  rw [heq, Run.stateAfter_ok]

/-- Each action has one of the effects. -/
theorem act_effect (c : Chain) (a : Action) : Effect c a (c.act a) := by
  cases a with
  | propose now suffix kind content level =>
    cases h : content.admit kind with
    | ok _ =>
      rw [act, propose_of_admit now suffix level h]
      exact .proposed h
    | error err =>
      have hfail := propose_of_not_admit (c := c) now suffix level h
      rw [act, hfail]
      exact .idle (by rw [draws, hfail]) (by rw [proposes, hfail])
  | submitVote now id witness accept reason =>
    rw [act]
    cases h : c.submitVote now id witness accept reason with
    | ok r =>
      obtain ⟨e, he, hmem, hnew, hlive, hvote, hc⟩ := submitVote_eq_ok_iff.1 h
      rw [Run.stateAfter_ok, hc, hvote]
      exact .voted he hmem hnew hlive
    | error err => exact .idle rfl rfl
  | finalize id =>
    rw [act]
    cases h : c.finalize id with
    | ok r =>
      obtain ⟨e, he, h | ⟨hopen, hquorum, -, hc⟩ | h⟩ := finalize_eq_ok_iff.1 h
      · rw [Run.stateAfter_ok, h.2.2]
        exact .idle rfl rfl
      · rw [Run.stateAfter_ok, hc]
        exact .accepted he hopen hquorum
      · rw [Run.stateAfter_ok, h.2.2.2]
        exact .idle rfl rfl
    | error err => exact .idle rfl rfl
  | reject id =>
    rw [act]
    cases h : c.reject id with
    | ok c' =>
      obtain ⟨e, he, hopen, hlost, hc⟩ := reject_eq_ok_iff.1 h
      rw [hc]
      exact .rejected he hopen hlost
    | error err => exact .idle rfl rfl
  | sealBlock now =>
    rw [act, sealBlock_eq]
    split
    · next h => exact .cleared h
    · next h => exact .sealed h
  | recordSettlement transfer => exact .settled

theorem recordSettlement_eq (c : Chain) (transfer : String) :
    c.recordSettlement transfer =
      { c with settled := (c.recordSettlement transfer).settled } := by
  rw [recordSettlement]
  split <;> rfl

/-- No action changes the panel. -/
theorem Effect.panel_eq {c c' : Chain} {a : Action} (h : Effect c a c') : c'.panel = c.panel := by
  cases h with
  | settled => rw [recordSettlement_eq]
  | _ => rfl

end WitnessLedger.Chain
