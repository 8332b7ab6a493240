import WitnessLedger.Proofs.Chain.Integrity

/-!
# What a proposal keeps

The id of a proposal is made with a suffix that nothing compares with those in use, and the index
has room for one entry under each id.  A proposal therefore keeps all entries but the one that has
its id already; this one is gone, with all that was reported of it, and if it was accepted then it
is not sealed any more.  All of this holds in every run, also where suffixes have been repeated
before.

## Key results

- `mem_accepted_run`: the accepted entries of every run wait for the next block
- `replaces_push`: what a proposal does to look-ups, reports and the next block
- `retention_run`: a proposal keeps all entries exactly when no other entry has its id
-/

namespace WitnessLedger

/-- An entry is stored over where something with its id is stored. -/
theorem Entry.overwritten_mem {stored : List Entry} {e : Entry} (h : ∃ s ∈ stored, s.id = e.id) :
    overwritten stored e ∈ stored := by
  induction stored generalizing e with
  | nil => simp at h
  | cons x stored ih =>
    rw [overwritten, List.foldl_cons, ← overwritten]
    by_cases hx : e.id = x.id
    · -- from here on it is `x`, which stays or is stored over in turn
      rw [if_pos hx]
      rcases overwritten_eq_or_mem stored x with heq | hmem
      · rw [heq]
        exact List.mem_cons_self ..
      · exact List.mem_cons_of_mem _ hmem
    · rw [if_neg hx]
      apply List.mem_cons_of_mem
      apply ih
      obtain ⟨s, hs, hid⟩ := h
      rcases List.mem_cons.1 hs with rfl | hs
      · exact absurd hid.symm hx
      · exact ⟨s, hs, hid⟩

namespace Chain

variable {c c' : Chain} {a : Action}

/-! ## Accepted entries in every run -/

/-- Whether all accepted entries wait for the next block. -/
def AcceptedWait (c : Chain) : Prop := ∀ e ∈ c.entries, e.phase = .accepted → e.id ∈ c.accepted

/-- An accepted entry that waits for the next block can be sealed. -/
theorem AcceptedWait.mem_sealable (h : c.AcceptedWait) (hd : Entry.DistinctIds c.entries)
    {e : Entry} (he : e ∈ c.entries) (hphase : e.phase = .accepted) : e ∈ c.sealable := by
  have hfound : c.entry? e.id = some e := (entry?_eq_some_iff hd).2 ⟨he, rfl⟩
  simp only [sealable, List.mem_filter, List.mem_filterMap, beq_iff_eq]
  exact ⟨⟨e.id, h e he hphase, hfound⟩, hphase⟩

/-- A change of one entry that accepts nothing leaves all accepted ones waiting. -/
theorem AcceptedWait.update (h : c.AcceptedWait) {f : Entry → Entry} (hid : ∀ e, (f e).id = e.id)
    (hphase : ∀ e, (f e).phase = .accepted → e.phase = .accepted) (id : String) :
    (c.update id f).AcceptedWait := by
  intro e' he' haccepted
  obtain ⟨e, he, rfl⟩ := List.mem_map.1 he'
  show _ ∈ c.accepted
  by_cases hkey : e.id = id
  · rw [if_pos hkey] at haccepted ⊢
    rw [hid]
    exact h e he (hphase e haccepted)
  · rw [if_neg hkey] at haccepted ⊢
    exact h e he haccepted

/-- What stands in the next block is not accepted any more, but sealed. -/
theorem phase_of_mem_blockOf {now : Instant} {m : Entry}
    (hm : m ∈ (c.blockOf now c.sealable).entries) : m.phase = .finalized := by
  obtain ⟨i, e, hi, rfl⟩ := mem_sealEntries.1 hm
  rw [Entry.sealEntry_eq _ _ _ (of_mem_sealable (List.mem_of_getElem? hi)).2]

/-- No action leaves an accepted entry that does not wait for the next block. -/
theorem Effect.acceptedWait (heffect : Effect c a c') (hd : Entry.DistinctIds c.entries)
    (h : c.AcceptedWait) : c'.AcceptedWait := by
  cases heffect with
  | idle => exact h
  | proposed hvalid =>
    intro e he hphase
    rcases mem_insertEntry he with rfl | he
    · cases hphase
    · exact h e he hphase
  | voted =>
    refine h.update (fun e => Entry.withVote_id e _) (fun e hphase => ?_) _
    rw [Entry.withVote_phase] at hphase
    revert hphase
    cases e.phase <;> decide
  | @accepted id =>
    intro e' he' haccepted
    show _ ∈ c.accepted ++ [id]
    obtain ⟨e, he, rfl⟩ := List.mem_map.1 he'
    by_cases hkey : e.id = id
    · rw [if_pos hkey, Entry.advanced_id, hkey]
      exact List.mem_append_right _ (List.mem_singleton_self _)
    · rw [if_neg hkey] at haccepted ⊢
      exact List.mem_append_left _ (h e he haccepted)
  | rejected =>
    refine h.update (fun e => Entry.advanced_id e _) (fun e hphase => ?_) _
    simp only [Entry.advanced_eq] at hphase
    split at hphase
    · cases hphase
    · exact hphase
  | @sealed now =>
    intro e' he' haccepted
    obtain ⟨e, he, rfl⟩ := List.mem_map.1 he'
    -- what is stored over is sealed, and what is not was not accepted
    have hstored : Entry.overwritten (c.blockOf now c.sealable).entries e ∈
        (c.blockOf now c.sealable).entries := by
      rcases Entry.overwritten_eq_or_mem (c.blockOf now c.sealable).entries e with heq | hmem
      · rw [heq] at haccepted
        obtain ⟨i, hi⟩ := List.mem_iff_getElem?.1 (h.mem_sealable hd he haccepted)
        have hmem : sealEntry _ c.height i e ∈ (c.blockOf now c.sealable).entries :=
          mem_sealEntries.2 ⟨i, e, hi, rfl⟩
        exact Entry.overwritten_mem ⟨_, hmem, Entry.sealEntry_id ..⟩
      · exact hmem
    rw [phase_of_mem_blockOf hstored] at haccepted
    cases haccepted
  | cleared hnone =>
    intro e he haccepted
    have hmem := h.mem_sealable hd he haccepted
    simp [hnone] at hmem
  | settled =>
    rw [recordSettlement_eq]
    exact h

variable {panel : Panel} {rule : ForkRule}

/-- The accepted entries of every run wait for the next block. -/
theorem mem_accepted_run (as : List Action) : ((new panel rule).run as).AcceptedWait := by
  induction as using List.reverseRecOn with
  | nil => exact fun e he => absurd he List.not_mem_nil
  | append_singleton as a ih =>
    rw [run_concat]
    exact (act_effect _ a).acceptedWait (distinctIds_run panel rule as) ih

/-- What can be sealed is in the next block. -/
theorem exists_sealed_of_mem_sealable {e : Entry} (he : e ∈ c.sealable) (now : Instant) :
    ∃ b, (c.sealBlock now).1 = some b ∧ ∃ m ∈ b.entries, e.Progress m ∧ m.phase = .finalized := by
  have hsome : c.sealable ≠ [] := List.ne_nil_of_mem he
  have hphase := (of_mem_sealable he).2
  obtain ⟨i, hi⟩ := List.mem_iff_getElem?.1 he
  refine ⟨c.blockOf now c.sealable, by rw [sealBlock_eq, if_neg hsome], _,
    mem_sealEntries.2 ⟨i, e, hi, rfl⟩, ?_, ?_⟩
  · exact (Entry.Step.sealed (p := c.panel) _ _ _ hphase).progress
  · rw [Entry.sealEntry_eq _ _ _ hphase]

/-! ## A proposal and the entries before it -/

/-- Whether all entries of a chain are found in another one as they were, what was verified is
    verified, and what was accepted is in the next block. -/
structure Keeps (c c' : Chain) : Prop where
  entries : ∀ id e, c.entry? id = some e → c'.entry? id = some e
  verified : ∀ id, (c.verifyEntry id).verified = true → (c'.verifyEntry id).verified = true
  sealed : ∀ id e, c.entry? id = some e → e.phase = .accepted → ∀ now,
    ∃ b, (c'.sealBlock now).1 = some b ∧ ∃ m ∈ b.entries, e.Progress m ∧ m.phase = .finalized

/-- What becomes of a chain when a proposal takes the place of whatever had its id. -/
structure Replaces (x : Entry) (c c' : Chain) : Prop where
  lookup_eq : ∀ id, c'.entry? id = if id = x.id then some x else c.entry? id
  verifyEntry_eq : ∀ id, id ≠ x.id → c'.verifyEntry id = c.verifyEntry id
  not_verified : (c'.verifyEntry x.id).verified = false
  sealable_eq : c'.sealable = c.sealable.filter (·.id != x.id)
  blocks_eq : c'.blocks = c.blocks

theorem find?_insertEntry_of_ne {x : Entry} {id : String} (h : id ≠ x.id) (es : List Entry) :
    (insertEntry x es).find? (·.id == id) = es.find? (·.id == id) := by
  induction es with
  | nil => simp [insertEntry, Ne.symm h]
  | cons y es ih =>
    rw [insertEntry]
    split
    · next hy => simp [hy, Ne.symm h]
    · simp only [List.find?_cons, ih]

theorem entry?_push_eq (c : Chain) (x : Entry) (id : String) :
    entry? (c.push x) id = if id = x.id then some x else c.entry? id := by
  split
  · next h => rw [h, entry?_push]
  · next h => exact find?_insertEntry_of_ne h c.entries

/-- A new entry is seen in place of the one that had its id, and nowhere else. -/
theorem replaces_push {x : Entry} (hphase : x.phase = .proposed) : Replaces x c (c.push x) where
  lookup_eq := entry?_push_eq c x
  verifyEntry_eq id h := by
    have hfailure : ∀ e, (c.push x).failure? e = c.failure? e := fun _ => rfl
    have hincluded : ∀ e, (c.push x).isIncluded e = c.isIncluded e := fun _ => rfl
    simp only [verifyEntry, entry?_push_eq, if_neg h, hfailure, hincluded]
  not_verified := by
    rw [verifyEntry, entry?_push]
    show ((c.push x).failure? x).isNone = false
    rw [failure?_of_ne (by simp [hphase])]
    rfl
  sealable_eq := by
    have hlookup : ∀ id, (Chain.entry? (c.push x) id).filter (·.phase == .accepted) =
        ((c.entry? id).filter (·.phase == .accepted)).filter (·.id != x.id) := by
      intro id
      by_cases hid : id = x.id
      · -- the new entry is not accepted, and the old one is no longer found
        rw [entry?_push_eq, if_pos hid, Option.filter_some, if_neg (by simp [hphase])]
        cases hold : c.entry? id with
        | none => rfl
        | some e =>
          have heid : e.id = x.id := (of_entry?_eq_some hold).2.trans hid
          by_cases hp : e.phase = .accepted <;> simp [Option.filter, hp, heid]
      · rw [entry?_push_eq, if_neg hid]
        cases hold : c.entry? id with
        | none => rfl
        | some e =>
          have heid : e.id ≠ x.id := by rwa [(of_entry?_eq_some hold).2]
          by_cases hp : e.phase = .accepted <;> simp [Option.filter, hp, heid]
    have hsealable : (c.push x).sealable =
        (c.accepted.filterMap (Chain.entry? (c.push x))).filter (·.phase == .accepted) := rfl
    rw [hsealable, sealable, List.filter_filterMap, List.filter_filterMap, List.filter_filterMap]
    exact List.filterMap_congr fun id _ => hlookup id
  blocks_eq := rfl

/-- A proposal keeps the entries of a chain exactly when no other entry has its id. -/
theorem Replaces.keeps_iff {x : Entry} (h : Replaces x c c') (hphase : x.phase = .proposed)
    (hd : Entry.DistinctIds c.entries) (hwait : c.AcceptedWait) :
    c.Keeps c' ↔ ∀ e, c.entry? x.id = some e → e = x := by
  constructor
  · intro hkeeps e he
    have hlater := hkeeps.entries x.id e he
    rw [h.lookup_eq, if_pos rfl, Option.some.injEq] at hlater
    exact hlater.symm
  · intro hsame
    -- an entry in another phase than the new one does not have its id
    have hne : ∀ id e, c.entry? id = some e → e.phase ≠ .proposed → id ≠ x.id := by
      rintro _ e he hne rfl
      rw [hsame e he] at hne
      exact hne hphase
    constructor
    case entries =>
      intro id e he
      rw [h.lookup_eq]
      split
      · next hid =>
        subst hid
        rw [hsame e he]
      · exact he
    case verified =>
      intro id hverified
      cases he : c.entry? id with
      | none => simp [verifyEntry, he, EntryVerification.unknown] at hverified
      | some e =>
        rwa [h.verifyEntry_eq id (hne id e he ?_)]
        intro hproposed
        simp only [verifyEntry, he] at hverified
        rw [failure?_of_ne (by simp [hproposed])] at hverified
        cases hverified
    case sealed =>
      intro id e he haccepted now
      apply exists_sealed_of_mem_sealable
      have hid : e.id ≠ x.id := by
        rw [(of_entry?_eq_some he).2]
        exact hne id e he (by simp [haccepted])
      rw [h.sealable_eq, List.mem_filter]
      exact ⟨hwait.mem_sealable hd (of_entry?_eq_some he).1 haccepted, by simp [hid]⟩

/-- In every run, also where suffixes are repeated, a proposal is seen in place of whatever had its
    id and changes no other entry.  So it keeps all entries, and what is known of them, exactly
    when it is refused or no other entry has its id. -/
theorem retention_run (panel : Panel) (rule : ForkRule) (as : List Action) (now : Instant)
    (suffix : String) (kind : EntryKind) (content : Content) (level : Level) :
    let c := (new panel rule).run as
    let a := Action.propose now suffix kind content level
    (∀ x ∈ c.proposes a, Replaces x c (c.act a)) ∧
      (c.Keeps (c.act a) ↔ ∀ x ∈ c.proposes a, ∀ e, c.entry? x.id = some e → e = x) := by
  intro c a
  have hd : Entry.DistinctIds c.entries := distinctIds_run panel rule as
  have hwait : c.AcceptedWait := mem_accepted_run as
  cases hadmit : content.admit kind with
  | ok _ =>
    have hproposes : c.proposes a = [c.draft now suffix kind content level] := by
      simp only [a, proposes, propose_of_admit now suffix level hadmit]
    have hact : c.act a = c.push (c.draft now suffix kind content level) :=
      act_propose now suffix level hadmit
    have hreplaces : Replaces (c.draft now suffix kind content level) c (c.act a) := by
      rw [hact]
      exact replaces_push rfl
    rw [hproposes]
    simp only [List.mem_singleton, forall_eq]
    exact ⟨hreplaces, hreplaces.keeps_iff rfl hd hwait⟩
  | error err =>
    have hproposes : c.proposes a = [] := by
      simp only [a, proposes, propose_of_not_admit now suffix level hadmit]
    have hact : c.act a = c := by
      simp only [a, act, propose_of_not_admit now suffix level hadmit, Run.stateAfter_error]
    rw [hproposes, hact]
    refine ⟨fun x hx => absurd hx List.not_mem_nil, fun _ x hx => absurd hx List.not_mem_nil,
      fun _ => ⟨fun _ _ he => he, fun _ h => h, fun id e he hphase now => ?_⟩⟩
    exact exists_sealed_of_mem_sealable
      (hwait.mem_sealable hd (of_entry?_eq_some he).1 hphase) now

/-- A credential is sealed, and a new one gets its suffix: the sealed one is no longer verified. -/
theorem not_keeps_repeatedSuffix :
    let c := (new trio .lowestEntryId).run credentialRun
    let again := Content.plain (.credentialIssuance ⟨"lct:a", "lct:c", "member"⟩)
    (c.verifyEntry "act:credential_issuance:x1").verified = true ∧
      ¬ c.Keeps (c.act (.propose .epoch "x1" .credentialIssuance again .root)) := by
  intro c again
  have hbefore : (c.verifyEntry "act:credential_issuance:x1").verified = true := by
    decide +kernel
  refine ⟨hbefore, fun hkeeps => ?_⟩
  have hafter := hkeeps.verified _ hbefore
  revert hafter
  decide +kernel

end Chain

end WitnessLedger
