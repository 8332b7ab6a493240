import WitnessLedger.Proofs.Chain.Consistency
import WitnessLedger.Proofs.List
import WitnessLedger.Text.Split

/-!
# Runs of a new chain

A run in which no suffix is taken twice gives every proposal an id of its own, so that it keeps a
new chain consistent.  Its chain holds what it proposed, each entry with what has since become of
it, and its blocks followed by the accepted ids are the order in which it accepted.

## Key results

- `Entry.proposedId_inj`: the id of a proposal gives away its suffix
- `traced_run`: a run of a new chain is traced by its histories
- `progress_run`: whatever comes later in a run, an entry of the chain stays and makes progress
-/

namespace WitnessLedger

theorem EntryKind.colon_notMem_name (k : EntryKind) : ':' ∉ k.name.toList := by
  cases k <;> decide

/-- What stands behind the first colon after the name of a kind is determined. -/
theorem EntryKind.name_colon_inj {k k' : EntryKind} {s s' : String}
    (h : k.name ++ ":" ++ s = k'.name ++ ":" ++ s') : s = s' := by
  have hchars : k.name.toList ++ ':' :: s.toList = k'.name.toList ++ ':' :: s'.toList := by
    simpa using congrArg String.toList h
  have htail := (Text.append_cons_inj k.colon_notMem_name k'.colon_notMem_name hchars).2
  exact String.toList_inj.1 htail

/-- The id of a proposal gives away its suffix. -/
theorem Entry.proposedId_inj {k k' : EntryKind} {s s' : String}
    (h : proposedId k s = proposedId k' s') : s = s' := by
  apply EntryKind.name_colon_inj
  simpa only [proposedId, String.append_assoc, String.append_right_inj] using h

namespace Chain

/-- What the histories of a run say of the chain that it leads to. -/
structure Traced (c : Chain) (proposed : List Entry) (taken accepted : List String) : Prop where
  consistent : c.Consistent
  /-- The entries are the proposed ones, each as it has become. -/
  entries : List.Forall₂ Entry.Progress proposed c.entries
  /-- Each id is made with one of the suffixes. -/
  made : ∀ e ∈ proposed, ∃ s ∈ taken, e.id = Entry.proposedId e.kind s
  accepted_eq : c.sealedIds ++ c.accepted = accepted

variable {c c' : Chain} {a : Action} {proposed : List Entry} {taken accepted : List String}

theorem Traced.ids_eq (h : c.Traced proposed taken accepted) :
    c.entries.map (·.id) = proposed.map (·.id) :=
  map_eq_of_forall₂ h.entries fun _ _ hprogress => hprogress.id_eq

theorem mem_proposes_propose {x : Entry} {now : Instant} {suffix : String} {kind : EntryKind}
    {content : Content} {level : Level} :
    x ∈ c.proposes (.propose now suffix kind content level) ↔
      content.admit kind = .ok () ∧ x = c.draft now suffix kind content level := by
  cases h : content.admit kind with
  | ok _ => simp [proposes, propose_of_admit now suffix level h]
  | error err => simp [proposes, propose_of_not_admit now suffix level h]

theorem mem_proposes {x : Entry} :
    x ∈ c.proposes a ↔ ∃ now suffix kind content level, content.admit kind = .ok () ∧
      a = .propose now suffix kind content level ∧ x = c.draft now suffix kind content level := by
  constructor
  · intro hx
    cases a with
    | propose now suffix kind content level =>
      obtain ⟨hvalid, heq⟩ := mem_proposes_propose.1 hx
      exact ⟨now, suffix, kind, content, level, hvalid, rfl, heq⟩
    | _ => simp [proposes] at hx
  · rintro ⟨now, suffix, kind, content, level, hvalid, rfl, rfl⟩
    exact mem_proposes_propose.2 ⟨hvalid, rfl⟩

/-- The id of a new entry is made with the suffix that the action takes. -/
theorem exists_draws_of_mem_proposes {x : Entry} (hx : x ∈ c.proposes a) :
    ∃ s ∈ c.draws a, x.id = Entry.proposedId x.kind s := by
  obtain ⟨now, suffix, kind, content, level, h, rfl, rfl⟩ := mem_proposes.1 hx
  rw [draws, propose_of_admit now suffix level h]
  exact ⟨suffix, List.mem_singleton_self _, rfl⟩

/-- An entry of the chain has been proposed. -/
theorem Traced.exists_proposal (h : c.Traced proposed taken accepted) {e : Entry}
    (he : e ∈ c.entries) : ∃ x ∈ proposed, x.Progress e :=
  exists_of_forall₂ h.entries he

/-- A suffix that has not been taken makes a new id. -/
theorem Traced.isFresh (h : c.Traced proposed taken accepted)
    (hnew : ∀ s ∈ c.draws a, s ∉ taken) : c.IsFresh a := by
  intro x hx e he hid
  obtain ⟨s, hs, hxid⟩ := exists_draws_of_mem_proposes hx
  obtain ⟨y, hy, hprogress⟩ := h.exists_proposal he
  obtain ⟨s', hs', hyid⟩ := h.made y hy
  rw [hprogress.id_eq, hxid, hyid] at hid
  exact hnew s hs (Entry.proposedId_inj hid ▸ hs')

/-- The order in which entries have been accepted grows by the one that is accepted now. -/
theorem Effect.sealedIds_append_accepted (h : Effect c a c') (hact : c.act a = c')
    (hc : c.Consistent) :
    c'.sealedIds ++ c'.accepted = c.sealedIds ++ c.accepted ++ c.accepts a := by
  cases h with
  | idle =>
    -- nothing changes, so that nothing is accepted that was not before
    have hnone : c.accepts a = [] := by
      cases a with
      | finalize id =>
        rw [accepts, hact, if_neg]
        exact fun h => h.1 h.2
      | _ => rfl
    rw [hnone, List.append_nil]
  | @accepted id e he hopen hquorum =>
    have hbefore : c.phase? id ≠ some .accepted := by
      rw [phase?, he, Option.map_some, ne_eq, Option.some.injEq]
      intro hp
      rw [hp] at hopen
      exact absurd hopen (by decide)
    have hafter : (c.accepting id).phase? id = some .accepted := by
      have hphase := phase?_update (fun x => Entry.advanced_id x .accepted) he id
      rw [if_pos rfl, Entry.advanced_of_isOpen hopen (.inl rfl)] at hphase
      exact hphase
    rw [accepts, hact, if_pos ⟨hbefore, hafter⟩, List.append_assoc]
    rfl
  | sealed hsome =>
    rw [sealedIds_sealing hc]
    rfl
  | cleared hnone =>
    have haccepted : c.accepted = [] := by rw [← map_id_sealable hc, hnone, List.map_nil]
    rw [← haccepted]
    exact (List.append_nil _).symm
  | settled =>
    rw [recordSettlement_eq]
    exact (List.append_nil _).symm
  | _ => exact (List.append_nil _).symm

/-- What is noted of an action whose suffix is new is what it adds to the histories. -/
theorem Traced.act (h : c.Traced proposed taken accepted) (hnew : ∀ s ∈ c.draws a, s ∉ taken) :
    (c.act a).Traced (proposed ++ c.proposes a) (taken ++ c.draws a) (accepted ++ c.accepts a) := by
  have hfresh := h.isFresh hnew
  have heffect := act_effect c a
  constructor
  case consistent => exact h.consistent.act hfresh
  case entries =>
    obtain ⟨f, hf, heq⟩ := heffect.entries_eq h.consistent hfresh
    -- each proposal has made progress to its entry, and the entry makes one more step
    have hold : List.Forall₂ Entry.Progress proposed (c.entries.map f) := by
      rw [List.forall₂_map_right_iff]
      have hpaired := List.forall₂_and_left _ _ |>.2 ⟨hf, h.entries.flip⟩
      exact (hpaired.imp fun e p hs => hs.2.trans hs.1.progress).flip
    rw [heq]
    exact List.rel_append hold (List.forall₂_same.2 fun x _ => .refl x)
  case made =>
    intro x hx
    rcases List.mem_append.1 hx with hx | hx
    · obtain ⟨s, hs, hid⟩ := h.made x hx
      exact ⟨s, List.mem_append_left _ hs, hid⟩
    · obtain ⟨s, hs, hid⟩ := exists_draws_of_mem_proposes hx
      exact ⟨s, List.mem_append_right _ hs, hid⟩
  case accepted_eq =>
    rw [heffect.sealedIds_append_accepted rfl h.consistent, h.accepted_eq]

/-- A run of a new chain is traced by its histories. -/
theorem traced_run (panel : Panel) (rule : ForkRule) (as : List Action)
    (h : (suffixes (new panel rule) as).Nodup) :
    ((new panel rule).run as).Traced (proposals (new panel rule) as)
      (suffixes (new panel rule) as) (acceptances (new panel rule) as) := by
  refine Run.induction_of_nodup (P := fun as => ((new panel rule).run as).Traced
    (proposals (new panel rule) as) (suffixes (new panel rule) as)
    (acceptances (new panel rule) as)) (new panel rule) ?_ ?_ as h
  · exact ⟨consistent_new panel rule, .nil, fun _ h => absurd h List.not_mem_nil, rfl⟩
  · intro as a _ hnew ih
    rw [run_concat, proposals, suffixes, acceptances, Run.chronicle_concat, Run.chronicle_concat,
      Run.chronicle_concat]
    exact ih.act hnew

/-- A proposed entry is still there, as it has become. -/
theorem Traced.exists_entry (h : c.Traced proposed taken accepted) {x : Entry}
    (hx : x ∈ proposed) : ∃ e, c.entry? x.id = some e ∧ x.Progress e := by
  obtain ⟨e, he, hprogress⟩ := exists_of_forall₂ h.entries.flip hx
  exact ⟨e, (entry?_eq_some_iff h.consistent.distinct).2 ⟨he, hprogress.id_eq⟩, hprogress⟩

/-! ## What runs keep of entries -/

theorem nodup_of_suffixes_append {c : Chain} {as bs : List Action}
    (h : (suffixes c (as ++ bs)).Nodup) : (suffixes c as).Nodup := by
  rw [suffixes, Run.chronicle_append] at h
  exact h.of_append_left

theorem run_panel (c : Chain) (as : List Action) : (c.run as).panel = c.panel := by
  induction as using List.reverseRecOn with
  | nil => rfl
  | append_singleton as a ih => rw [run_concat, (act_effect _ a).panel_eq, ih]

variable {panel : Panel} {rule : ForkRule} {as bs : List Action}

/-- One more action of a run changes the entries in place, each by a step, and adds the one that
    it proposes. -/
theorem entries_run_concat (h : (suffixes (new panel rule) (as ++ [a])).Nodup) :
    ∃ f, (∀ e ∈ ((new panel rule).run as).entries, Entry.Step panel e (f e)) ∧
      ((new panel rule).run (as ++ [a])).entries =
        ((new panel rule).run as).entries.map f ++ ((new panel rule).run as).proposes a := by
  have htraced := traced_run panel rule as (nodup_of_suffixes_append h)
  have hpanel : ((new panel rule).run as).panel = panel := run_panel _ as
  rw [suffixes, Run.chronicle_concat, List.nodup_append] at h
  have hfresh := htraced.isFresh (a := a) fun s hs hs' => h.2.2 s hs' s hs rfl
  have hentries := (act_effect _ a).entries_eq htraced.consistent hfresh
  rwa [hpanel, ← run_concat] at hentries

/-- What holds of new entries and is kept by each step of an entry holds of the entries of every
    run. -/
theorem forall_entries_run {P : Entry → Prop}
    (hnew : ∀ id kind level content prevHash now, P (.new id kind level content prevHash now))
    (hstep : ∀ e e', Entry.Step panel e e' → P e → P e')
    (h : (suffixes (new panel rule) as).Nodup) : ∀ e ∈ ((new panel rule).run as).entries, P e := by
  induction as using List.reverseRecOn with
  | nil => exact fun e he => absurd he List.not_mem_nil
  | append_singleton as a ih =>
    obtain ⟨f, hf, heq⟩ := entries_run_concat h
    intro e he
    rw [heq] at he
    rcases List.mem_append.1 he with he | he
    · obtain ⟨x, hx, rfl⟩ := List.mem_map.1 he
      exact hstep x _ (hf x hx) (ih (nodup_of_suffixes_append h) x hx)
    · obtain ⟨now, suffix, kind, content, level, -, -, rfl⟩ := mem_proposes.1 he
      exact hnew ..

/-- Whatever comes later in a run, an entry of the chain stays and makes progress. -/
theorem progress_run (h : (suffixes (new panel rule) (as ++ bs)).Nodup) {id : String} {e : Entry}
    (he : entry? ((new panel rule).run as) id = some e) :
    ∃ e', entry? ((new panel rule).run (as ++ bs)) id = some e' ∧ e.Progress e' := by
  induction bs using List.reverseRecOn with
  | nil => exact ⟨e, by rwa [List.append_nil], .refl e⟩
  | append_singleton bs b ih =>
    rw [← List.append_assoc] at h ⊢
    obtain ⟨e', he', hprogress⟩ := ih (nodup_of_suffixes_append h)
    obtain ⟨f, hf, heq⟩ := entries_run_concat h
    have hids := fun x hx => (hf x hx).progress.id_eq
    have hstep := (hf e' (of_entry?_eq_some he').1).progress
    exact ⟨f e', entry?_of_entries_eq hids heq he', hprogress.trans hstep⟩

end Chain

end WitnessLedger
