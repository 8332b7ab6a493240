import WitnessLedger.Proofs.Chain.Reachable

/-!
# Where entries stand

No entry is lost and none is counted twice: after every run of a new chain, the pending ids, the
accepted ids and the blocks each hold exactly the entries of their phases, each entry once, and in
the order in which they were proposed or accepted.

## Key results

- `standing_run`: the whole of this, for every run in which no suffix is taken twice
-/

namespace WitnessLedger.Chain

/-- The entry at a place of the block at a height. -/
def sealedAt? (c : Chain) (height place : Nat) : Option Entry :=
  c.blocks[height]?.bind (·.entries[place]?)

/-- How the pending ids, the accepted ids and the blocks of a chain agree with the phases in its
    index and with the orders in which ids were proposed and accepted. -/
structure Standing (c : Chain) (proposed accepted : List String) : Prop where
  ids : c.entries.map (·.id) = proposed
  pending_nodup : c.pending.Nodup
  pending_sublist : c.pending.Sublist proposed
  mem_pending : ∀ id, id ∈ c.pending ↔
    c.phase? id = some .proposed ∨ c.phase? id = some .voting ∨ c.phase? id = some .accepted
  accepted_nodup : c.accepted.Nodup
  mem_accepted : ∀ id, id ∈ c.accepted ↔ c.phase? id = some .accepted
  finalized_iff : ∀ id, c.phase? id = some .finalized ↔
    ∃ height place m, c.sealedAt? height place = some m ∧ m.id = id
  /-- No id stands at two places. -/
  place_unique : ∀ height height' place place' m m', c.sealedAt? height place = some m →
    c.sealedAt? height' place' = some m' → m.id = m'.id → height = height' ∧ place = place'
  height_eq : ∀ (i : Nat) (b : Block), c.blocks[i]? = some b → b.height = i
  /-- A block has the entries of the index as they are, and these know the block. -/
  sealed_eq : ∀ height place m, c.sealedAt? height place = some m →
    c.entry? m.id = some m ∧ m.blockHeight = some height
  rejected_notSealed : ∀ id, c.phase? id = some .rejected →
    ∀ height place m, c.sealedAt? height place = some m → m.id ≠ id
  accepted_eq : c.sealedIds ++ c.accepted = accepted

variable {c : Chain}

theorem sealedAt?_eq_some_iff {height place : Nat} {m : Entry} :
    c.sealedAt? height place = some m ↔
      ∃ b, c.blocks[height]? = some b ∧ b.entries[place]? = some m := by
  rw [sealedAt?, Option.bind_eq_some_iff]

theorem mem_sealedIds {id : String} :
    id ∈ c.sealedIds ↔ ∃ height place m, c.sealedAt? height place = some m ∧ m.id = id := by
  simp only [sealedIds, List.mem_flatMap, List.mem_map, sealedAt?_eq_some_iff]
  constructor
  · rintro ⟨b, hb, m, hm, hid⟩
    obtain ⟨i, hi⟩ := List.mem_iff_getElem?.1 hb
    obtain ⟨j, hj⟩ := List.mem_iff_getElem?.1 hm
    exact ⟨i, j, m, ⟨b, hi, hj⟩, hid⟩
  · rintro ⟨i, j, m, ⟨b, hi, hj⟩, hid⟩
    exact ⟨b, List.mem_of_getElem? hi, m, List.mem_of_getElem? hj, hid⟩

namespace Consistent

theorem sealed_eq (hc : c.Consistent) {height place : Nat} {m : Entry}
    (h : c.sealedAt? height place = some m) :
    c.entry? m.id = some m ∧ m.blockHeight = some height := by
  obtain ⟨b, hb, hm⟩ := sealedAt?_eq_some_iff.1 h
  obtain ⟨hfound, -, hheight⟩ :=
    hc.members b (List.mem_of_getElem? hb) m (List.mem_of_getElem? hm)
  rw [hc.heights height b hb] at hheight
  exact ⟨hfound, hheight⟩

/-- The height of an id is the one that its entry has, and within a block no id is twice. -/
theorem place_unique (hc : c.Consistent) {height height' place place' : Nat} {m m' : Entry}
    (h : c.sealedAt? height place = some m) (h' : c.sealedAt? height' place' = some m')
    (hid : m.id = m'.id) : height = height' ∧ place = place' := by
  obtain ⟨hfound, hheight⟩ := hc.sealed_eq h
  obtain ⟨hfound', hheight'⟩ := hc.sealed_eq h'
  rw [hid, hfound', Option.some.injEq] at hfound
  subst hfound
  rw [hheight', Option.some.injEq] at hheight
  subst hheight
  refine ⟨rfl, ?_⟩
  -- both places are in one block, whose ids are distinct
  obtain ⟨b, hb, hm⟩ := sealedAt?_eq_some_iff.1 h
  obtain ⟨b', hb', hm'⟩ := sealedAt?_eq_some_iff.1 h'
  rw [hb, Option.some.injEq] at hb'
  subst hb'
  have hnodup : (b.entries.map (·.id)).Nodup :=
    (List.nodup_flatMap.1 hc.sealed_nodup).1 b (List.mem_of_getElem? hb)
  have hlt : place < (b.entries.map (·.id)).length := by
    rw [List.length_map]
    exact (List.getElem?_eq_some_iff.1 hm).1
  refine (List.getElem?_inj hlt hnodup).1 ?_
  rw [List.getElem?_map, List.getElem?_map, hm, hm']

theorem mem_pending (hc : c.Consistent) (id : String) :
    id ∈ c.pending ↔
      c.phase? id = some .proposed ∨ c.phase? id = some .voting ∨ c.phase? id = some .accepted := by
  have hmem : id ∈ c.pending ↔ ∃ e, c.entry? id = some e ∧ e.phase.isTerminal = false := by
    simp only [hc.pending_eq, List.mem_map, List.mem_filter, Bool.not_eq_true',
      entry?_eq_some_iff hc.distinct]
    exact exists_congr fun e => and_right_comm
  rw [hmem, phase?]
  cases c.entry? id with
  | none => simp
  | some e =>
    simp only [Option.some.injEq, exists_eq_left', Option.map_some]
    cases e.phase <;> decide

end Consistent

/-- After every run of a new chain in which no suffix is taken twice, the pending ids, the accepted
    ids and the blocks agree with the phases and with the orders of proposal and acceptance. -/
theorem standing_run (panel : Panel) (rule : ForkRule) (as : List Action)
    (h : (suffixes (new panel rule) as).Nodup) :
    ((new panel rule).run as).Standing ((proposals (new panel rule) as).map (·.id))
      (acceptances (new panel rule) as) := by
  have ht := traced_run panel rule as h
  have hc := ht.consistent
  have hids : ((new panel rule).run as).entries.map (·.id) =
      (proposals (new panel rule) as).map (·.id) := ht.ids_eq
  constructor
  case ids => exact hids
  case pending_nodup =>
    rw [hc.pending_eq]
    exact hc.distinct.sublist (List.filter_sublist.map _)
  case pending_sublist =>
    rw [hc.pending_eq, ← hids]
    exact List.filter_sublist.map _
  case mem_pending => exact hc.mem_pending
  case accepted_nodup => exact hc.accepted_nodup
  case mem_accepted => exact hc.mem_accepted
  case finalized_iff => exact fun id => (hc.mem_sealed id).symm.trans mem_sealedIds
  case place_unique => exact fun _ _ _ _ _ _ => hc.place_unique
  case height_eq => exact hc.heights
  case sealed_eq => exact fun _ _ _ => hc.sealed_eq
  case rejected_notSealed =>
    rintro _ hrejected height place m hm rfl
    have hfinal := (hc.mem_sealed m.id).1 (mem_sealedIds.2 ⟨height, place, m, hm, rfl⟩)
    rw [hrejected] at hfinal
    exact absurd hfinal (by decide)
  case accepted_eq => exact ht.accepted_eq

/-- Three witnesses of which three fifths have to accept. -/
def trio : Panel where
  nodes := ["w1", "w2", "w3"]
  threshold := .ratio 3 5
  nodes_ne_nil := by decide
  nodup_nodes := by decide
  inRange := by decide +kernel

/-- Two credentials are proposed; the first is accepted and sealed, and the second is rejected. -/
def credentialRun : List Action :=
  let now := Instant.epoch
  let credential := Content.plain (.credentialIssuance ⟨"lct:a", "lct:b", "member"⟩)
  let first := "act:credential_issuance:x1"
  let second := "act:credential_issuance:x2"
  [ .propose now "x1" .credentialIssuance credential .root,
    .propose now "x2" .credentialIssuance credential .root,
    .submitVote now first "w1" true none, .submitVote now second "w1" false none,
    .submitVote now first "w2" true none, .submitVote now second "w2" false none,
    .finalize first, .reject second, .sealBlock now ]

/-- The two suffixes of the run differ. -/
theorem standing_credentialRun :
    (suffixes (new trio .lowestEntryId) credentialRun).Nodup ∧
      ((new trio .lowestEntryId).run credentialRun).Standing
        ((proposals (new trio .lowestEntryId) credentialRun).map (·.id))
        (acceptances (new trio .lowestEntryId) credentialRun) :=
  have h : (suffixes (new trio .lowestEntryId) credentialRun).Nodup := by decide
  ⟨h, standing_run trio .lowestEntryId credentialRun h⟩

end WitnessLedger.Chain
