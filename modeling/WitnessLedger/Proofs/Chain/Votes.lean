import WitnessLedger.Proofs.Chain.Acceptance

/-!
# Votes in every run

A suffix that is taken twice puts a new entry in the place of an old one, which may then be sealed
and pending at once.  The index itself stays in order also in such a run: each id stands in it
once, and each entry is a new one or has made a step since.  So whatever is shown of new entries
and of steps holds of all entries of all runs, and the votes on an entry always come from different
members of the panel.

## Key results

- `Effect.distinctIds`: no action makes an id stand twice in the index
- `Effect.exists_step`: an entry after an action is new or comes from one before it by a step
- `forall_entries`: what new entries have and steps keep, all entries of all runs have
- `votedBy_run`: votes are signed votes of different members, in every run
-/

namespace WitnessLedger

namespace Entry

theorem distinctIds_map {es : List Entry} {f : Entry → Entry} (hf : ∀ e ∈ es, (f e).id = e.id)
    (h : DistinctIds es) : DistinctIds (es.map f) := by
  rw [DistinctIds, map_id_map hf]
  exact h

/-- An entry that others are stored over stays or becomes one of them. -/
theorem overwritten_eq_or_mem (stored : List Entry) (e : Entry) :
    overwritten stored e = e ∨ overwritten stored e ∈ stored := by
  induction stored generalizing e with
  | nil => exact .inl rfl
  | cons s stored ih =>
    rw [overwritten, List.foldl_cons, ← overwritten]
    split
    · -- from here on it is `s`, which stays or is stored over in turn
      rcases ih s with h | h
      · exact .inr (by rw [h]; exact List.mem_cons_self ..)
      · exact .inr (List.mem_cons_of_mem _ h)
    · exact (ih e).imp_right (List.mem_cons_of_mem _)

end Entry

namespace Chain

open Entry (DistinctIds)

theorem mem_insertEntry {e x : Entry} {es : List Entry} (h : x ∈ insertEntry e es) :
    x = e ∨ x ∈ es := by
  induction es with
  | nil => exact .inl (List.mem_singleton.1 h)
  | cons y es ih =>
    rw [insertEntry] at h
    split at h
    · exact (List.mem_cons.1 h).imp_right (List.mem_cons_of_mem _)
    · rcases List.mem_cons.1 h with rfl | h
      · exact .inr (List.mem_cons_self ..)
      · exact (ih h).imp_right (List.mem_cons_of_mem _)

/-- An entry takes the place of the one with its id, so that no id is added twice. -/
theorem distinctIds_insertEntry (e : Entry) {es : List Entry} (h : DistinctIds es) :
    DistinctIds (insertEntry e es) := by
  induction es with
  | nil => exact List.nodup_singleton _
  | cons y es ih =>
    rw [DistinctIds, List.map_cons, List.nodup_cons] at h
    rw [insertEntry]
    split
    · next hid =>
      rw [DistinctIds, List.map_cons, ← hid, List.nodup_cons]
      exact h
    · next hid =>
      rw [DistinctIds, List.map_cons, List.nodup_cons]
      refine ⟨fun hmem => ?_, ih h.2⟩
      obtain ⟨x, hx, hxid⟩ := List.mem_map.1 hmem
      rcases mem_insertEntry hx with rfl | hx
      · exact hid hxid.symm
      · exact h.1 (List.mem_map.2 ⟨x, hx, hxid⟩)

variable {c c' : Chain} {a : Action}

/-- No action makes an id stand twice in the index. -/
theorem Effect.distinctIds (h : Effect c a c') (hd : DistinctIds c.entries) :
    DistinctIds c'.entries := by
  -- what is done to the entry with one id keeps the ids of all
  have hupdate : ∀ (id : String) (f : Entry → Entry), (∀ e, (f e).id = e.id) →
      DistinctIds (c.update id f).entries := by
    intro id f hf
    refine Entry.distinctIds_map (fun e _ => ?_) hd
    split
    · exact hf e
    · rfl
  cases h with
  | idle => exact hd
  | proposed => exact distinctIds_insertEntry _ hd
  | voted => exact hupdate _ _ fun e => Entry.withVote_id e _
  | accepted => exact hupdate _ _ fun e => Entry.advanced_id e _
  | rejected => exact hupdate _ _ fun e => Entry.advanced_id e _
  | sealed => exact Entry.distinctIds_map (fun e _ => Entry.overwritten_id _ e) hd
  | cleared => exact hd
  | settled => rwa [recordSettlement_eq]

/-- An entry after an action is the one that it proposes, or comes by a step from an entry before
    it. -/
theorem Effect.exists_step (h : Effect c a c') (hd : DistinctIds c.entries) :
    ∀ e' ∈ c'.entries, e' ∈ c.proposes a ∨ ∃ e ∈ c.entries, Entry.Step c.panel e e' := by
  have stays : ∀ e' ∈ c.entries, e' ∈ c.proposes a ∨ ∃ e ∈ c.entries, Entry.Step c.panel e e' :=
    fun e' he' => .inr ⟨e', he', .kept⟩
  have hupdate : ∀ {id : String} {e : Entry} {f : Entry → Entry}, c.entry? id = some e →
      Entry.Step c.panel e (f e) → ∀ e' ∈ (c.update id f).entries,
        e' ∈ c.proposes a ∨ ∃ e ∈ c.entries, Entry.Step c.panel e e' := by
    intro id e f he hs e' he'
    obtain ⟨x, hx, rfl⟩ := List.mem_map.1 he'
    exact .inr ⟨x, hx, step_ite hd he hs x hx⟩
  cases h with
  | idle => exact stays
  | proposed hvalid =>
    intro e' he'
    rcases mem_insertEntry he' with rfl | he'
    · exact .inl (mem_proposes_propose.2 ⟨hvalid, rfl⟩)
    · exact stays e' he'
  | voted he hmem hnew hlive =>
    refine hupdate he ?_
    rw [← (of_entry?_eq_some he).2]
    exact .voted _ _ _ _ hmem hnew hlive
  | accepted he hopen hquorum =>
    exact hupdate (f := (·.advanced .accepted)) he (.accepted hopen hquorum)
  | rejected he hopen hlost =>
    exact hupdate (f := (·.advanced .rejected)) he (.rejected hopen hlost)
  | sealed hsome =>
    intro e' he'
    obtain ⟨e, he, rfl⟩ := List.mem_map.1 he'
    rcases Entry.overwritten_eq_or_mem (c.blockOf _ c.sealable).entries e with heq | hstored
    · rw [heq]
      exact stays e he
    · -- what is stored has been made of an accepted entry, not always of the one it stands for
      obtain ⟨i, x, hi, hx⟩ := mem_sealEntries.1 hstored
      obtain ⟨hmem, hphase⟩ := of_mem_sealable (List.mem_of_getElem? hi)
      rw [hx]
      exact .inr ⟨x, hmem, .sealed _ _ _ hphase⟩
  | cleared => exact stays
  | settled =>
    rw [recordSettlement_eq]
    exact stays

variable {panel : Panel} {rule : ForkRule}

theorem distinctIds_run (panel : Panel) (rule : ForkRule) (as : List Action) :
    DistinctIds ((new panel rule).run as).entries := by
  induction as using List.reverseRecOn with
  | nil => exact List.nodup_nil
  | append_singleton as a ih =>
    rw [run_concat]
    exact (act_effect _ a).distinctIds ih

/-- What new entries have and each step keeps, all entries of all runs have. -/
theorem forall_entries {P : Entry → Prop}
    (hnew : ∀ id kind level content prevHash now, P (.new id kind level content prevHash now))
    (hstep : ∀ e e', Entry.Step panel e e' → P e → P e') (as : List Action) :
    ∀ e ∈ ((new panel rule).run as).entries, P e := by
  induction as using List.reverseRecOn with
  | nil => exact fun e he => absurd he List.not_mem_nil
  | append_singleton as a ih =>
    intro e' he'
    rw [run_concat] at he'
    rcases (act_effect _ a).exists_step (distinctIds_run panel rule as) e' he' with h | ⟨e, he, hs⟩
    · obtain ⟨now, suffix, kind, content, level, -, -, rfl⟩ := mem_proposes.1 h
      exact hnew ..
    · rw [run_panel] at hs
      exact hstep e e' hs (ih e he)

/-- The votes on an entry are signed votes on it by different members of the panel, in every
    run. -/
theorem votedBy_run (as : List Action) :
    ∀ e ∈ ((new panel rule).run as).entries, e.VotedBy panel := fun e he =>
  have hsound : e.Sound panel :=
    forall_entries (Entry.sound_new panel) (fun _ _ hs => hs.sound) as e he
  hsound.toVotedBy

end Chain

end WitnessLedger
