import WitnessLedger.Proofs.Chain.Effect

/-!
# Consistency of a chain

A chain says where an entry stands in four places: the phase in the index, the list of pending
entries, the list of accepted ones, and the blocks.  `Chain.Consistent` is what they have in
common, and every action whose new id is not taken keeps it.

## Key results

- `Effect.entries_eq`: an action changes the entries in place, each by a step, and adds the one
  that it proposes
- `Consistent.act`: each action keeps a chain consistent
-/

namespace WitnessLedger.Chain

/-- The ids of the sealed entries, in the order of the blocks. -/
def sealedIds (c : Chain) : List String := c.blocks.flatMap fun b => b.entries.map (·.id)

/-- What the index, the pending and accepted ids and the blocks say of each other. -/
structure Consistent (c : Chain) : Prop where
  distinct : Entry.DistinctIds c.entries
  pending_eq : c.pending = (c.entries.filter (!·.phase.isTerminal)).map (·.id)
  accepted_nodup : c.accepted.Nodup
  mem_accepted : ∀ id, id ∈ c.accepted ↔ c.phase? id = some .accepted
  heights : ∀ (i : Nat) (b : Block), c.blocks[i]? = some b → b.height = i
  /-- A block holds the entries of the index as they are. -/
  members : ∀ b ∈ c.blocks, ∀ m ∈ b.entries,
    c.entry? m.id = some m ∧ m.phase = .finalized ∧ m.blockHeight = some b.height
  sealed_nodup : c.sealedIds.Nodup
  mem_sealed : ∀ id, id ∈ c.sealedIds ↔ c.phase? id = some .finalized

/-- Whether the id that an action makes is not taken. -/
def IsFresh (c : Chain) (a : Action) : Prop := ∀ x ∈ c.proposes a, ∀ e ∈ c.entries, e.id ≠ x.id

theorem consistent_new (panel : Panel) (rule : ForkRule) : (new panel rule).Consistent where
  distinct := List.nodup_nil
  pending_eq := rfl
  accepted_nodup := List.nodup_nil
  mem_accepted id := by simp [new, phase?, entry?]
  heights i b h := by simp [new] at h
  members b hb := by simp [new] at hb
  sealed_nodup := List.nodup_nil
  mem_sealed id := by simp [new, sealedIds, phase?, entry?]

/-! ## Sealing -/

section Sealing

variable {c : Chain}

theorem phase?_eq_some_iff {id : String} {p : Phase} :
    c.phase? id = some p ↔ ∃ e, c.entry? id = some e ∧ e.phase = p := by
  simp [phase?]

theorem Consistent.mem_accepted_iff (hc : c.Consistent) {id : String} {e : Entry}
    (he : c.entry? id = some e) : id ∈ c.accepted ↔ e.phase = .accepted := by
  simp [hc.mem_accepted, phase?, he]

/-- The ids of found entries in a phase, where all ids lead to such entries. -/
private theorem map_id_filterMap {ids : List String} {p : Phase}
    (h : ∀ id ∈ ids, c.phase? id = some p) :
    ((ids.filterMap c.entry?).filter (·.phase == p)).map (·.id) = ids := by
  induction ids with
  | nil => rfl
  | cons id ids ih =>
    obtain ⟨e, he, hp⟩ := phase?_eq_some_iff.1 (h id (List.mem_cons_self ..))
    have ih := ih fun x hx => h x (List.mem_cons_of_mem _ hx)
    rw [List.filterMap_cons_some he, List.filter_cons_of_pos (by simp [hp]), List.map_cons, ih,
      (of_entry?_eq_some he).2]

theorem map_id_sealable (hc : c.Consistent) : c.sealable.map (·.id) = c.accepted :=
  map_id_filterMap fun id h => (hc.mem_accepted id).1 h

/-- What can be sealed is an accepted entry of the index, in every chain. -/
theorem of_mem_sealable {e : Entry} (h : e ∈ c.sealable) :
    e ∈ c.entries ∧ e.phase = .accepted := by
  simp only [sealable, List.mem_filter, List.mem_filterMap, beq_iff_eq] at h
  obtain ⟨⟨id, -, he⟩, hp⟩ := h
  exact ⟨(of_entry?_eq_some he).1, hp⟩

theorem mem_sealable (hc : c.Consistent) {e : Entry} :
    e ∈ c.sealable ↔ e ∈ c.entries ∧ e.phase = .accepted := by
  constructor
  · exact of_mem_sealable
  · rintro ⟨he, hp⟩
    simp only [sealable, List.mem_filter, List.mem_filterMap, beq_iff_eq]
    have hfound : c.entry? e.id = some e := (entry?_eq_some_iff hc.distinct).2 ⟨he, rfl⟩
    exact ⟨⟨e.id, (hc.mem_accepted _).2 (phase?_eq_some_iff.2 ⟨e, hfound, hp⟩), hfound⟩, hp⟩

/-- What sealing an entry keeps, sealing entries keeps of each. -/
theorem map_sealEntries {α : Type} {f : Entry → α} (hf : ∀ tree height i e,
    f (sealEntry tree height i e) = f e) (height : Nat) (members : List Entry) :
    (sealEntries height members).map f = members.map f := by
  apply List.ext_getElem?
  intro i
  simp [sealEntries, List.getElem?_mapIdx, Function.comp_def, hf]

theorem map_id_sealEntries (height : Nat) (members : List Entry) :
    (sealEntries height members).map (·.id) = members.map (·.id) :=
  map_sealEntries Entry.sealEntry_id height members

theorem mem_sealEntries {height : Nat} {members : List Entry} {m : Entry} :
    m ∈ sealEntries height members ↔ ∃ i e, members[i]? = some e ∧
      m = sealEntry (Merkle.Tree.build (members.map (·.contentHash))) height i e := by
  rw [sealEntries, List.mem_iff_getElem?]
  simp only [List.getElem?_mapIdx, Option.map_eq_some_iff]
  exact ⟨fun ⟨i, e, he, hm⟩ => ⟨i, e, he, hm.symm⟩, fun ⟨i, e, he, hm⟩ => ⟨i, e, he, hm.symm⟩⟩

/-- What becomes of an entry when the accepted ones are sealed. -/
def afterSealing (c : Chain) (e : Entry) : Entry :=
  Entry.overwritten (sealEntries c.height c.sealable) e

@[simp] theorem afterSealing_id (e : Entry) : (c.afterSealing e).id = e.id :=
  Entry.overwritten_id _ _

theorem afterSealing_of_accepted (hc : c.Consistent) {i : Nat} {e : Entry}
    (he : c.sealable[i]? = some e) :
    c.afterSealing e =
      sealEntry (Merkle.Tree.build (c.sealable.map (·.contentHash))) c.height i e := by
  have hn : Entry.DistinctIds (sealEntries c.height c.sealable) := by
    rw [Entry.DistinctIds, map_id_sealEntries, map_id_sealable hc]
    exact hc.accepted_nodup
  exact Entry.overwritten_of_mem hn (mem_sealEntries.2 ⟨i, e, he, rfl⟩) (Entry.sealEntry_id ..)

theorem afterSealing_of_ne (hc : c.Consistent) {e : Entry} (he : e ∈ c.entries)
    (hp : e.phase ≠ .accepted) : c.afterSealing e = e := by
  refine Entry.overwritten_of_notMem fun s hs hid => ?_
  -- an entry with the id of a stored one is the accepted entry that was stored
  obtain ⟨i, x, hx, rfl⟩ := mem_sealEntries.1 hs
  have hmem := (mem_sealable hc).1 (List.mem_of_getElem? hx)
  rw [Entry.sealEntry_id] at hid
  rw [Entry.eq_of_distinctIds hc.distinct hmem.1 he hid] at hmem
  exact hp hmem.2

theorem step_afterSealing (hc : c.Consistent) {e : Entry} (he : e ∈ c.entries) :
    Entry.Step c.panel e (c.afterSealing e) := by
  by_cases hp : e.phase = .accepted
  · obtain ⟨i, hi⟩ := List.mem_iff_getElem?.1 ((mem_sealable hc).2 ⟨he, hp⟩)
    rw [afterSealing_of_accepted hc hi]
    exact .sealed _ _ _ hp
  · rw [afterSealing_of_ne hc he hp]
    exact .kept

/-- The accepted entries become sealed, and all others stay in their phase. -/
theorem afterSealing_phase (hc : c.Consistent) {e : Entry} (he : e ∈ c.entries) :
    (c.afterSealing e).phase = if e.phase = .accepted then .finalized else e.phase := by
  split
  · next hp =>
    obtain ⟨i, hi⟩ := List.mem_iff_getElem?.1 ((mem_sealable hc).2 ⟨he, hp⟩)
    rw [afterSealing_of_accepted hc hi, Entry.sealEntry_eq _ _ _ hp]
  · next hp => rw [afterSealing_of_ne hc he hp]

end Sealing

/-! ## The entries after an action -/

section Entries

variable {c c' : Chain} {a : Action}

/-- The entry with an id steps, and all others stay. -/
theorem step_ite (hc : Entry.DistinctIds c.entries) {id : String} {e : Entry}
    {f : Entry → Entry} (he : c.entry? id = some e) (hs : Entry.Step c.panel e (f e)) :
    ∀ x ∈ c.entries, Entry.Step c.panel x (if x.id = id then f x else x) := by
  intro x hx
  split
  · next hid =>
    obtain ⟨hmem, hid'⟩ := of_entry?_eq_some he
    rw [Entry.eq_of_distinctIds hc hx hmem (hid.trans hid'.symm)]
    exact hs
  · exact .kept

/-- An action changes the entries in place, each by a step, and adds the one it proposes. -/
theorem Effect.entries_eq (hc : c.Consistent) (hfresh : c.IsFresh a) (h : Effect c a c') :
    ∃ f, (∀ e ∈ c.entries, Entry.Step c.panel e (f e)) ∧
      c'.entries = c.entries.map f ++ c.proposes a := by
  have same : c.entries = c.entries.map id ++ [] := by simp
  cases h with
  | idle hdraws hproposes => exact ⟨id, fun e _ => .kept, by rw [hproposes]; exact same⟩
  | @proposed now suffix kind content level hvalid =>
    have hp : c.proposes (.propose now suffix kind content level) =
        [c.draft now suffix kind content level] := by
      rw [proposes, propose_of_admit now suffix level hvalid]
    refine ⟨id, fun e _ => .kept, ?_⟩
    rw [push, hp, List.map_id]
    exact insertEntry_eq_append (hfresh _ (by rw [hp]; exact List.mem_singleton_self _))
  | voted he hmem hnew hlive =>
    refine ⟨_, step_ite hc.distinct he ?_, (List.append_nil _).symm⟩
    rw [← (of_entry?_eq_some he).2]
    exact .voted _ _ _ _ hmem hnew hlive
  | accepted he hopen hquorum =>
    have hs := step_ite (f := (·.advanced .accepted)) hc.distinct he (.accepted hopen hquorum)
    exact ⟨_, hs, (List.append_nil _).symm⟩
  | rejected he hopen hlost =>
    have hs := step_ite (f := (·.advanced .rejected)) hc.distinct he (.rejected hopen hlost)
    exact ⟨_, hs, (List.append_nil _).symm⟩
  | sealed hsome =>
    exact ⟨c.afterSealing, fun e he => step_afterSealing hc he, (List.append_nil _).symm⟩
  | cleared hnone => exact ⟨id, fun e _ => .kept, same⟩
  | settled =>
    refine ⟨id, fun e _ => .kept, ?_⟩
    rw [recordSettlement_eq]
    exact same

/-- An entry that is there before an action is there after it, as it has then become. -/
theorem entry?_of_entries_eq {f : Entry → Entry} (hf : ∀ e ∈ c.entries, (f e).id = e.id)
    {added : List Entry} (heq : c'.entries = c.entries.map f ++ added) {id : String} {e : Entry}
    (he : c.entry? id = some e) : c'.entry? id = some (f e) := by
  have hfound : (c.entries.map f).find? (·.id == id) = some (f e) := by
    rw [Entry.find?_map hf]
    exact congrArg (Option.map f) he
  unfold entry?
  rw [heq, List.find?_append, hfound, Option.some_or]

/-- Sealed entries are still in the index after an action, as they were. -/
theorem members_of_entries_eq (hc : c.Consistent) {f : Entry → Entry}
    (hf : ∀ e ∈ c.entries, Entry.Step c.panel e (f e)) {added : List Entry}
    (heq : c'.entries = c.entries.map f ++ added) :
    ∀ b ∈ c.blocks, ∀ m ∈ b.entries,
      c'.entry? m.id = some m ∧ m.phase = .finalized ∧ m.blockHeight = some b.height := by
  intro b hb m hm
  obtain ⟨hfound, hphase, hheight⟩ := hc.members b hb m hm
  have hfrozen := (hf m (of_entry?_eq_some hfound).1).progress.frozen (by rw [hphase]; rfl)
  have hlater := entry?_of_entries_eq (fun e he => (hf e he).progress.id_eq) heq hfound
  rw [hfrozen] at hlater
  exact ⟨hlater, hphase, hheight⟩

theorem phase?_update {id : String} {f : Entry → Entry} (hf : ∀ x, (f x).id = x.id) {e : Entry}
    (he : c.entry? id = some e) (k : String) :
    (c.update id f).phase? k = if k = id then some (f e).phase else c.phase? k := by
  rw [phase?, entry?_update hf he]
  split <;> rfl

end Entries

/-! ## Each action keeps a chain consistent -/

section Kept

variable {c c' : Chain}

/-- The case of an action that changes one entry: what has to be seen is where the entry stands
    afterwards. -/
private theorem Consistent.of_update (hc : c.Consistent) {id : String} {e : Entry}
    {f : Entry → Entry} (he : c.entry? id = some e) (hs : Entry.Step c.panel e (f e))
    (hf : ∀ x, (f x).id = x.id) (hlive : e.phase.isTerminal = false)
    (hnotSealed : (f e).phase ≠ .finalized) (hentries : c'.entries = (c.update id f).entries)
    (hblocks : c'.blocks = c.blocks) (keep : String → Bool) (hkeep : ∀ k, k ≠ id → keep k = true)
    (hkeepId : keep id = !(f e).phase.isTerminal) (hpending : c'.pending = c.pending.filter keep)
    (hnodup : c'.accepted.Nodup)
    (haccepted : ∀ k,
      k ∈ c'.accepted ↔ if k = id then (f e).phase = .accepted else k ∈ c.accepted) :
    c'.Consistent := by
  have hsteps := step_ite hc.distinct he hs
  have hids : ∀ x ∈ c.entries, (if x.id = id then f x else x).id = x.id :=
    fun x hx => (hsteps x hx).progress.id_eq
  have heq : c'.entries = c.entries.map (fun x => if x.id = id then f x else x) ++ [] := by
    rw [hentries, List.append_nil, update]
  have hphase : ∀ k, c'.phase? k = if k = id then some (f e).phase else c.phase? k := by
    intro k
    rw [← phase?_update hf he k, phase?, phase?, entry?, entry?, hentries]
  constructor
  case distinct =>
    rw [Entry.DistinctIds, heq, List.append_nil, Entry.map_id_map hids]
    exact hc.distinct
  case pending_eq =>
    rw [hpending, hc.pending_eq, heq, List.append_nil]
    refine (Entry.map_id_filter_map hids fun x hx => ?_).symm
    -- only the entry that changes can leave the pending ones
    by_cases hx' : x.id = id
    · have hxe := Entry.eq_of_distinctIds hc.distinct hx (of_entry?_eq_some he).1
        (hx'.trans (of_entry?_eq_some he).2.symm)
      subst hxe
      simp [hx', hlive, hkeepId]
    · simp [hx', hkeep]
  case accepted_nodup => exact hnodup
  case mem_accepted =>
    intro k
    rw [haccepted, hphase]
    split
    · simp
    · exact hc.mem_accepted k
  case heights => rw [hblocks]; exact hc.heights
  case members => rw [hblocks]; exact members_of_entries_eq hc hsteps heq
  case sealed_nodup => rw [sealedIds, hblocks]; exact hc.sealed_nodup
  case mem_sealed =>
    intro k
    have hold : k ∈ c'.sealedIds ↔ c.phase? k = some .finalized := by
      rw [sealedIds, hblocks]; exact hc.mem_sealed k
    rw [hold, hphase]
    split
    · next hk =>
      subst hk
      simp only [phase?, he, Option.map_some, Option.some.injEq, hnotSealed, iff_false]
      intro hfinal
      rw [hfinal] at hlive
      exact absurd hlive (by decide)
    · rfl

private theorem Consistent.push (hc : c.Consistent) {e : Entry} (hphase : e.phase = .proposed)
    (hfresh : ∀ x ∈ c.entries, x.id ≠ e.id) : (c.push e).Consistent := by
  have heq : (c.push e).entries = c.entries ++ [e] := insertEntry_eq_append hfresh
  have hnone : c.entries.find? (·.id == e.id) = none := by
    rw [List.find?_eq_none]
    exact fun x hx => by simpa using hfresh x hx
  have hlookup : ∀ k, entry? (c.push e) k = if e.id = k then some e else c.entry? k := by
    intro k
    unfold entry?
    rw [heq, List.find?_append]
    split
    · next hk =>
      subst hk
      simp [hnone]
    · next hk => simp [hk]
  -- the new entry is only proposed, so that no id is in a later phase than before
  have hlater : ∀ k p, p ≠ .proposed → ((c.push e).phase? k = some p ↔ c.phase? k = some p) := by
    intro k p hp
    simp only [phase?, hlookup]
    split
    · next hk =>
      subst hk
      have hnew : c.entry? e.id = none := hnone
      simp [hnew, hphase, Ne.symm hp]
    · rfl
  constructor
  case distinct =>
    rw [Entry.DistinctIds, heq]
    exact nodup_map_concat hc.distinct hfresh
  case pending_eq =>
    rw [heq, List.filter_append, List.map_append, ← hc.pending_eq]
    simp [Chain.push, hphase, Phase.isTerminal]
  case accepted_nodup => exact hc.accepted_nodup
  case mem_accepted => exact fun k => (hc.mem_accepted k).trans (hlater k _ (by decide)).symm
  case heights => exact hc.heights
  case members =>
    intro b hb m hm
    obtain ⟨hfound, hrest⟩ := hc.members b hb m hm
    have hne : e.id ≠ m.id := Ne.symm (hfresh m (of_entry?_eq_some hfound).1)
    exact ⟨by rw [hlookup, if_neg hne, hfound], hrest⟩
  case sealed_nodup => exact hc.sealed_nodup
  case mem_sealed => exact fun k => (hc.mem_sealed k).trans (hlater k _ (by decide)).symm

theorem entry?_sealing (c : Chain) (now : Instant) (id : String) :
    entry? (c.sealing now) id = (Option.map c.afterSealing <| c.entry? id) :=
  Entry.find?_map (fun e _ => c.afterSealing_id e) id

theorem phase?_sealing (hc : c.Consistent) (now : Instant) (id : String) :
    (c.sealing now).phase? id =
      (c.phase? id).map fun p => if p = .accepted then .finalized else p := by
  rw [phase?, phase?, entry?_sealing]
  cases he : c.entry? id with
  | none => rfl
  | some e => simp [afterSealing_phase hc (of_entry?_eq_some he).1]

/-- The ids that are accepted when a block is made are the ids of the block. -/
theorem sealedIds_sealing (hc : c.Consistent) (now : Instant) :
    (c.sealing now).sealedIds = c.sealedIds ++ c.accepted := by
  have hnew : (sealEntries c.height c.sealable).map (·.id) = c.accepted := by
    rw [map_id_sealEntries, map_id_sealable hc]
  simp [sealedIds, Chain.sealing, blockOf, hnew]

/-- The accepted ids are sealed in one block, and where there are none no block is made. -/
theorem sealBlock_accepted (hc : c.Consistent) (now : Instant) :
    (c.sealBlock now).2.accepted = [] ∧
      (c.sealBlock now).2.sealedIds = c.sealedIds ++ c.accepted ∧
      (c.sealBlock now).2.blocks.length =
        c.blocks.length + if c.accepted = [] then 0 else 1 := by
  have hnone : c.sealable = [] ↔ c.accepted = [] := by
    rw [← map_id_sealable hc, List.map_eq_nil_iff]
  rw [sealBlock_eq]
  by_cases h : c.accepted = []
  · rw [if_pos (hnone.2 h), if_pos h, h, List.append_nil]
    exact ⟨rfl, rfl, rfl⟩
  · rw [if_neg (mt hnone.1 h), if_neg h]
    exact ⟨rfl, sealedIds_sealing hc now, List.length_append⟩

private theorem Consistent.sealing (hc : c.Consistent) (now : Instant) :
    (c.sealing now).Consistent := by
  have hids : ∀ e ∈ c.entries, (c.afterSealing e).id = e.id := fun e _ => c.afterSealing_id e
  have heq : (c.sealing now).entries = c.entries.map c.afterSealing ++ [] :=
    (List.append_nil _).symm
  constructor
  case distinct =>
    rw [Entry.DistinctIds, heq, List.append_nil, Entry.map_id_map hids]
    exact hc.distinct
  case pending_eq =>
    have hpending : (c.sealing now).pending =
        c.pending.filter fun id => !(c.sealable.any (·.id == id)) := rfl
    rw [hpending, hc.pending_eq, heq, List.append_nil]
    refine (Entry.map_id_filter_map hids fun e he => ?_).symm
    have hsealed : c.sealable.any (·.id == e.id) = decide (e.phase = .accepted) := by
      rw [Bool.eq_iff_iff, decide_eq_true_iff]
      simp only [List.any_eq_true, beq_iff_eq]
      constructor
      · rintro ⟨x, hx, hid⟩
        obtain ⟨hmem, hp⟩ := (mem_sealable hc).1 hx
        rwa [Entry.eq_of_distinctIds hc.distinct hmem he hid] at hp
      · exact fun hp => ⟨e, (mem_sealable hc).2 ⟨he, hp⟩, rfl⟩
    rw [afterSealing_phase hc he, hsealed]
    cases e.phase <;> rfl
  case accepted_nodup => exact List.nodup_nil
  case mem_accepted =>
    intro id
    have hnone : id ∉ (c.sealing now).accepted := List.not_mem_nil
    rw [phase?_sealing hc]
    simp only [hnone, false_iff, Option.map_eq_some_iff, not_exists, not_and]
    rintro p -
    cases p <;> decide
  case heights =>
    intro i b hb
    have hblocks : (c.sealing now).blocks = c.blocks ++ [c.blockOf now c.sealable] := rfl
    rw [hblocks] at hb
    -- the new block stands behind all others, at the number of them
    rcases Nat.lt_or_ge i c.blocks.length with hi | hi
    · rw [List.getElem?_append_left hi] at hb
      exact hc.heights i b hb
    · rw [List.getElem?_append_right hi, List.getElem?_singleton] at hb
      split at hb
      · next hlast =>
        cases hb
        show c.blocks.length = i
        omega
      · cases hb
  case members =>
    intro b hb m hm
    rcases List.mem_append.1 hb with hb | hb
    · exact members_of_entries_eq hc (fun e he => step_afterSealing hc he) heq b hb m hm
    · -- a member of the new block is what its entry has become in the index
      rw [List.mem_singleton] at hb
      subst hb
      obtain ⟨i, e, hi, rfl⟩ := mem_sealEntries.1 hm
      obtain ⟨hmem, hp⟩ := (mem_sealable hc).1 (List.mem_of_getElem? hi)
      have hfound : c.entry? e.id = some e := (entry?_eq_some_iff hc.distinct).2 ⟨hmem, rfl⟩
      rw [Entry.sealEntry_id, entry?_sealing, hfound, Option.map_some,
        afterSealing_of_accepted hc hi, Entry.sealEntry_eq _ _ _ hp]
      exact ⟨rfl, rfl, rfl⟩
  case sealed_nodup =>
    rw [sealedIds_sealing hc, List.nodup_append]
    refine ⟨hc.sealed_nodup, hc.accepted_nodup, ?_⟩
    rintro id hsealed _ haccepted rfl
    have h := (hc.mem_sealed id).1 hsealed
    rw [(hc.mem_accepted id).1 haccepted] at h
    exact absurd h (by decide)
  case mem_sealed =>
    intro id
    rw [sealedIds_sealing hc, List.mem_append, hc.mem_sealed, hc.mem_accepted, phase?_sealing hc]
    cases c.phase? id with
    | none => simp
    | some p => cases p <;> decide

/-- Each effect of an action with a new id leaves a chain consistent. -/
theorem Effect.consistent {a : Action} (h : Effect c a c') (hc : c.Consistent)
    (hfresh : c.IsFresh a) : c'.Consistent := by
  cases h with
  | idle => exact hc
  | @proposed now suffix kind content level hvalid =>
    have hnew : c.draft now suffix kind content level ∈
        c.proposes (.propose now suffix kind content level) := by
      rw [proposes, propose_of_admit now suffix level hvalid]
      exact List.mem_singleton_self _
    exact hc.push rfl (hfresh _ hnew)
  | @voted now id witness accept reason e he hmem hnew hlive =>
    have hid := (of_entry?_eq_some he).2
    have hs : Entry.Step c.panel e (e.withVote (Vote.cast witness id accept reason now)) := by
      rw [← hid]
      exact .voted _ _ _ _ hmem hnew hlive
    have hphase := e.withVote_phase (Vote.cast witness id accept reason now)
    refine hc.of_update he hs (fun x => Entry.withVote_id x _) hlive ?_ rfl rfl (fun _ => true)
      (fun _ _ => rfl) ?_ ?_ hc.accepted_nodup ?_
    · rw [hphase]
      revert hlive
      cases e.phase <;> decide
    · rw [hphase]
      revert hlive
      cases e.phase <;> decide
    · exact (List.filter_eq_self.2 fun _ _ => rfl).symm
    · intro k
      split
      · next hk =>
        subst hk
        show k ∈ c.accepted ↔ _
        rw [hc.mem_accepted_iff he, hphase]
        cases e.phase <;> decide
      · rfl
  | @accepted id e he hopen hquorum =>
    have hphase : (e.advanced .accepted).phase = .accepted := by
      rw [Entry.advanced_of_isOpen hopen (.inl rfl)]
    -- an open entry has not been accepted, so that its id is not added twice
    have hnot : id ∉ c.accepted := by
      rw [hc.mem_accepted_iff he]
      intro hp
      rw [hp] at hopen
      exact absurd hopen (by decide)
    refine hc.of_update (f := (·.advanced .accepted)) he (.accepted hopen hquorum)
      (fun x => Entry.advanced_id x _) (Phase.isTerminal_of_isOpen hopen)
      (by rw [hphase]; decide) rfl rfl (fun _ => true) (fun _ _ => rfl)
      (by rw [hphase]; rfl) (List.filter_eq_self.2 fun _ _ => rfl).symm ?_ ?_
    · show (c.accepted ++ [id]).Nodup
      rw [List.nodup_append]
      exact ⟨hc.accepted_nodup, List.nodup_singleton _, by
        rintro x hx y hy rfl
        exact hnot (List.mem_singleton.1 hy ▸ hx)⟩
    · intro k
      show k ∈ c.accepted ++ [id] ↔ _
      split <;> simp [*]
  | @rejected id e he hopen hlost =>
    have hphase : (e.advanced .rejected).phase = .rejected := by
      rw [Entry.advanced_of_isOpen hopen (.inr rfl)]
    refine hc.of_update (f := (·.advanced .rejected)) he (.rejected hopen hlost)
      (fun x => Entry.advanced_id x _) (Phase.isTerminal_of_isOpen hopen)
      (by rw [hphase]; decide) rfl rfl (· != id) (fun k hk => by simpa using hk)
      (by rw [hphase]; simp [Phase.isTerminal]) rfl hc.accepted_nodup ?_
    intro k
    show k ∈ c.accepted ↔ _
    split
    · next hk =>
      subst hk
      rw [hc.mem_accepted_iff he, hphase]
      revert hopen
      cases e.phase <;> decide
    · rfl
  | sealed hsome => exact hc.sealing _
  | cleared hnone =>
    -- there was nothing to clear: each accepted id can be sealed
    have haccepted : c.accepted = [] := by rw [← map_id_sealable hc, hnone, List.map_nil]
    rw [← haccepted]
    exact hc
  | settled =>
    rw [recordSettlement_eq]
    exact { hc with }

/-- Each action with a new id keeps a chain consistent. -/
theorem Consistent.act {a : Action} (hc : c.Consistent) (hfresh : c.IsFresh a) :
    (c.act a).Consistent :=
  (act_effect c a).consistent hc hfresh

end Kept

end WitnessLedger.Chain
