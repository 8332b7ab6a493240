import WitnessLedger.Chain.Proposal
import WitnessLedger.Proofs.Entry.Step
import WitnessLedger.Proofs.List

/-!
# The index of entries

The index of a chain is a list in which each id stands once.  All operations but a proposal change
its members in place and keep their ids, and a proposal with a new id adds one at the end.

## Key results

- `Entry.find?_map`: a change that keeps ids is seen through the look-up
- `Chain.entry?_eq_some_iff`: the look-up finds what stands in the index under an id
- `Chain.insertEntry_eq_append`: an entry with a new id is added at the end
- `Chain.foldl_store`: entries that are stored one after the other are changed in place
-/

namespace WitnessLedger

namespace Entry

/-- Whether the ids of some entries are pairwise distinct. -/
def DistinctIds (es : List Entry) : Prop := (es.map (·.id)).Nodup

theorem eq_of_distinctIds {es : List Entry} (h : DistinctIds es) {e e' : Entry} (he : e ∈ es)
    (he' : e' ∈ es) (hid : e.id = e'.id) : e = e' :=
  List.inj_on_of_nodup_map h he he' hid

/-- Looking up an id commutes with a change that keeps the ids. -/
theorem find?_map {es : List Entry} {f : Entry → Entry} (hf : ∀ e ∈ es, (f e).id = e.id)
    (id : String) : (es.map f).find? (·.id == id) = (es.find? (·.id == id)).map f := by
  induction es with
  | nil => rfl
  | cons e es ih =>
    have he := hf e (List.mem_cons_self ..)
    have ih := ih fun x hx => hf x (List.mem_cons_of_mem _ hx)
    simp only [List.map_cons, List.find?_cons, he]
    split
    · rfl
    · exact ih

theorem map_id_map {es : List Entry} {f : Entry → Entry} (hf : ∀ e ∈ es, (f e).id = e.id) :
    (es.map f).map (·.id) = es.map (·.id) := by
  rw [List.map_map]
  exact List.map_congr_left hf

/-- The ids of those that satisfy `p` after a change, where `p` then holds of those for which it
    held before and whose id satisfies `keep`. -/
theorem map_id_filter_map {es : List Entry} {f : Entry → Entry} {p : Entry → Bool}
    {keep : String → Bool} (hf : ∀ e ∈ es, (f e).id = e.id)
    (hp : ∀ e ∈ es, p (f e) = (p e && keep e.id)) :
    ((es.map f).filter p).map (·.id) = ((es.filter p).map (·.id)).filter keep := by
  induction es with
  | nil => rfl
  | cons e es ih =>
    have ih := ih (fun x hx => hf x (List.mem_cons_of_mem _ hx))
      (fun x hx => hp x (List.mem_cons_of_mem _ hx))
    have he := hf e (List.mem_cons_self ..)
    have hpe := hp e (List.mem_cons_self ..)
    simp only [List.map_cons, List.filter_cons, hpe]
    cases p e <;> cases hk : keep e.id <;> simp [ih, he, hk]

/-- What an entry becomes when entries are stored one after the other, each in the place of the
    one that has its id. -/
def overwritten (stored : List Entry) (e : Entry) : Entry :=
  stored.foldl (fun e s => if e.id = s.id then s else e) e

@[simp] theorem overwritten_id (stored : List Entry) (e : Entry) :
    (overwritten stored e).id = e.id := by
  induction stored generalizing e with
  | nil => rfl
  | cons s stored ih =>
    rw [overwritten, List.foldl_cons, ← overwritten, ih]
    split
    · next h => exact h.symm
    · rfl

theorem overwritten_of_notMem {stored : List Entry} {e : Entry} (h : ∀ s ∈ stored, s.id ≠ e.id) :
    overwritten stored e = e := by
  induction stored with
  | nil => rfl
  | cons s stored ih =>
    have hs := h s (List.mem_cons_self ..)
    rw [overwritten, List.foldl_cons, if_neg (Ne.symm hs), ← overwritten]
    exact ih fun x hx => h x (List.mem_cons_of_mem _ hx)

theorem overwritten_of_mem {stored : List Entry} {s e : Entry} (hn : DistinctIds stored)
    (hs : s ∈ stored) (hid : s.id = e.id) : overwritten stored e = s := by
  induction stored generalizing e with
  | nil => simp at hs
  | cons x stored ih =>
    rw [DistinctIds, List.map_cons, List.nodup_cons] at hn
    obtain ⟨hx, hn⟩ := hn
    rw [overwritten, List.foldl_cons, ← overwritten]
    rcases List.mem_cons.1 hs with rfl | hs
    · -- stored at once, and no later one has its id
      rw [if_pos hid.symm]
      exact overwritten_of_notMem fun y hy hyid => hx (List.mem_map.2 ⟨y, hy, hyid⟩)
    · have hne : e.id ≠ x.id := by
        rintro heq
        exact hx (List.mem_map.2 ⟨s, hs, by rw [hid, heq]⟩)
      rw [if_neg hne]
      exact ih hn hs hid

end Entry

namespace Chain

theorem of_entry?_eq_some {c : Chain} {id : String} {e : Entry} (h : c.entry? id = some e) :
    e ∈ c.entries ∧ e.id = id :=
  ⟨List.mem_of_find?_eq_some h, by simpa using List.find?_some h⟩

theorem entry?_eq_some_iff {c : Chain} (h : Entry.DistinctIds c.entries) {id : String}
    {e : Entry} : c.entry? id = some e ↔ e ∈ c.entries ∧ e.id = id := by
  constructor
  · exact of_entry?_eq_some
  · rintro ⟨he, rfl⟩
    exact find?_key_eq_some h he

/-- A change of one entry is seen at its id and nowhere else. -/
theorem entry?_update {c : Chain} {id : String} {f : Entry → Entry} (hf : ∀ x, (f x).id = x.id)
    {e : Entry} (he : c.entry? id = some e) (k : String) :
    entry? (c.update id f) k = if k = id then some (f e) else c.entry? k := by
  have hids : ∀ x ∈ c.entries, (if x.id = id then f x else x).id = x.id := by
    intro x _
    split
    · exact hf x
    · rfl
  unfold entry? update
  rw [Entry.find?_map hids]
  split
  · next hk =>
    subst hk
    have hid := (of_entry?_eq_some he).2
    have hfound : c.entries.find? (·.id == k) = some e := he
    simp [hfound, hid]
  · next hk =>
    cases hx : c.entries.find? (·.id == k) with
    | none => rfl
    | some x =>
      have hxid : x.id = k := by simpa using List.find?_some hx
      simp [hxid, hk]

theorem insertEntry_eq_append {e : Entry} {es : List Entry} (h : ∀ x ∈ es, x.id ≠ e.id) :
    insertEntry e es = es ++ [e] := by
  induction es with
  | nil => rfl
  | cons x es ih =>
    rw [insertEntry, if_neg (h x (List.mem_cons_self ..)),
      ih fun y hy => h y (List.mem_cons_of_mem _ hy), List.cons_append]

/-- An entry that has just been proposed is found under its id, also where it has taken the place of
    another one. -/
theorem entry?_push (c : Chain) (e : Entry) : entry? (c.push e) e.id = some e := by
  have hfound : ∀ es, (insertEntry e es).find? (·.id == e.id) = some e := by
    intro es
    induction es with
    | nil => simp [insertEntry]
    | cons x es ih =>
      rw [insertEntry]
      split
      · simp
      · next hne => simp [hne, ih]
  exact hfound c.entries

/-- Storing entries one after the other changes the index in place and nothing else. -/
theorem foldl_store (stored : List Entry) (c : Chain) :
    stored.foldl store c = { c with entries := c.entries.map (Entry.overwritten stored) } := by
  induction stored generalizing c with
  | nil =>
    have hid : Entry.overwritten [] = id := rfl
    rw [List.foldl_nil, hid, List.map_id]
  | cons s stored ih =>
    rw [List.foldl_cons, ih, store, update]
    simp only [List.map_map]
    rfl

end Chain

end WitnessLedger
