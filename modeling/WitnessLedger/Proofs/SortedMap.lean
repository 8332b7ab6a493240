import WitnessLedger.SortedMap
import Mathlib.Data.List.Nodup

/-!
# Sorted maps and their pairs

A sorted map is determined by the pairs that it holds, whatever their order was.

## Key results

- `eq_of_perm`: two maps of the same pairs are equal
- `ofList_perm`: the map of pairs with different keys holds these pairs
- `ofList_eq_of_perm`: the order of the pairs does not matter
- `find?_ofList`: each of these pairs is found under its key
- `ofList_toList`: the map of the pairs of a map is this map
- `lookup?_foldl_insertNew`: of pairs that are put in unless their key has a value, the first wins
-/

namespace WitnessLedger.SortedMap

variable {α : Type}

/-- Two maps that hold the same pairs are equal. -/
theorem eq_of_perm {m n : SortedMap α} (h : m.toList.Perm n.toList) : m = n := by
  obtain ⟨l, hl⟩ := m
  obtain ⟨l', hl'⟩ := n
  have heq : l = l' := h.eq_of_pairwise
    (fun a b _ _ hab hba => absurd (String.lt_trans hab hba) (String.lt_irrefl _)) hl hl'
  subst heq
  rfl

theorem insertInto_perm {key : String} {value : α} {l : List (String × α)}
    (h : key ∉ l.map Prod.fst) : (insertInto key value l).Perm ((key, value) :: l) := by
  induction l with
  | nil => exact .refl _
  | cons p l ih =>
    obtain ⟨k, v⟩ := p
    rw [List.map_cons, List.mem_cons, not_or] at h
    rw [insertInto]
    split
    · exact .refl _
    · rw [if_neg h.1]
      exact ((ih h.2).cons (k, v)).trans (.swap ..)

/-- Putting in pairs with new keys adds these pairs. -/
theorem foldl_insert_perm {l : List (String × α)} {m : SortedMap α}
    (h : ((l ++ m.toList).map Prod.fst).Nodup) :
    (l.foldl (fun m p => m.insert p.1 p.2) m).toList.Perm (l ++ m.toList) := by
  induction l generalizing m with
  | nil => exact .refl _
  | cons p l ih =>
    rw [List.cons_append, List.map_cons, List.nodup_cons] at h
    have hkey : p.1 ∉ m.toList.map Prod.fst := fun hmem =>
      h.1 (by rw [List.map_append]; exact List.mem_append_right _ hmem)
    have hinsert : (m.insert p.1 p.2).toList.Perm (p :: m.toList) := insertInto_perm hkey
    have hmiddle : (l ++ (m.insert p.1 p.2).toList).Perm (p :: (l ++ m.toList)) :=
      (hinsert.append_left l).trans List.perm_middle
    have hnodup : ((l ++ (m.insert p.1 p.2).toList).map Prod.fst).Nodup := by
      rw [(hmiddle.map Prod.fst).nodup_iff]
      exact List.nodup_cons.2 h
    exact (ih hnodup).trans hmiddle

/-- The map of pairs with different keys holds these pairs. -/
theorem ofList_perm {l : List (String × α)} (h : (l.map Prod.fst).Nodup) :
    (ofList l).toList.Perm l := by
  have hperm := foldl_insert_perm (l := l) (m := empty) (by simpa [empty] using h)
  rwa [show (empty : SortedMap α).toList = [] from rfl, List.append_nil] at hperm

/-- The order of pairs with different keys does not matter. -/
theorem ofList_eq_of_perm {l l' : List (String × α)} (h : (l.map Prod.fst).Nodup)
    (hperm : l.Perm l') : ofList l = ofList l' := by
  have h' : (l'.map Prod.fst).Nodup := (hperm.map Prod.fst).nodup_iff.1 h
  exact eq_of_perm ((ofList_perm h).trans (hperm.trans (ofList_perm h').symm))

/-- A pair is found under its key, where no other pair has this key. -/
theorem find?_of_mem {l : List (String × α)} (h : (l.map Prod.fst).Nodup) {key : String}
    {value : α} (hmem : (key, value) ∈ l) : find? key l = some value := by
  induction l with
  | nil => cases hmem
  | cons p l ih =>
    obtain ⟨k, v⟩ := p
    rw [List.map_cons, List.nodup_cons] at h
    rw [find?]
    rcases List.mem_cons.1 hmem with heq | hmem
    · rw [Prod.mk.injEq] at heq
      rw [if_pos heq.1.symm, heq.2]
    · have hne : k ≠ key := by
        rintro rfl
        exact h.1 (List.mem_map.2 ⟨_, hmem, rfl⟩)
      rw [if_neg hne, ih h.2 hmem]

/-- Each of the pairs that a map is made of is found under its key. -/
theorem find?_ofList {l : List (String × α)} (h : (l.map Prod.fst).Nodup) {key : String} {value : α}
    (hmem : (key, value) ∈ l) : find? key (ofList l).toList = some value := by
  have hperm := ofList_perm h
  exact find?_of_mem ((hperm.map Prod.fst).nodup_iff.2 h) (hperm.mem_iff.2 hmem)

/-- Nothing is found under a key that no pair has. -/
theorem find?_eq_none_iff {key : String} {l : List (String × α)} :
    find? key l = none ↔ key ∉ l.map Prod.fst := by
  induction l with
  | nil => simp [find?]
  | cons p l ih =>
    rw [find?, List.map_cons, List.mem_cons, not_or]
    split
    · next h => simp [h]
    · next h => rw [ih, and_iff_right (Ne.symm h)]

/-- Where no key is twice, what is found under a key is the pair that has it. -/
theorem find?_eq_some_iff {l : List (String × α)} (h : (l.map Prod.fst).Nodup) {key : String}
    {value : α} : find? key l = some value ↔ (key, value) ∈ l := by
  refine ⟨fun hfound => ?_, find?_of_mem h⟩
  -- some pair has the key, and it is the one that is found
  have hmem : key ∈ l.map Prod.fst := by
    by_contra hnone
    rw [find?_eq_none_iff.2 hnone] at hfound
    cases hfound
  obtain ⟨⟨k, v⟩, hp, rfl⟩ := List.mem_map.1 hmem
  rw [find?_of_mem h hp, Option.some.injEq] at hfound
  rwa [← hfound]

theorem find?_append (key : String) (l l' : List (String × α)) :
    find? key (l ++ l') = (find? key l).or (find? key l') := by
  induction l with
  | nil => rfl
  | cons p l ih =>
    rw [List.cons_append, find?, find?]
    split
    · rfl
    · exact ih

/-- A key is looked for in one list after the other. -/
theorem find?_flatMap {β : Type} (key : String) (f : β → List (String × α)) (xs : List β) :
    find? key (xs.flatMap f) = xs.findSome? fun x => find? key (f x) := by
  induction xs with
  | nil => rfl
  | cons x xs ih =>
    rw [List.flatMap_cons, find?_append, ih, List.findSome?_cons]
    cases find? key (f x) <;> rfl

theorem mem_keys_iff {m : SortedMap α} {key : String} :
    key ∈ m.keys ↔ (m.lookup? key).isSome = true := by
  rw [lookup?, ← Option.ne_none_iff_isSome, ne_eq, find?_eq_none_iff, not_not, keys]

/-! ## The first value of a key -/

/-- A value is found where its key had none before. -/
theorem lookup?_insertNew (m : SortedMap α) (key k : String) (value : α) :
    (m.insertNew key value).lookup? k =
      (m.lookup? k).or (if key = k then some value else none) := by
  rw [insertNew]
  split
  · next hsome =>
    obtain ⟨v, hv⟩ := Option.isSome_iff_exists.1 hsome
    split
    · next hk => rw [← hk, hv, Option.some_or]
    · rw [Option.or_none]
  · next hnone =>
    rw [lookup?_insert]
    split
    · next hk =>
      rw [hk, Bool.not_eq_true, Option.isSome_eq_false_iff, Option.isNone_iff_eq_none] at hnone
      rw [hnone, Option.none_or]
    · rw [Option.or_none]

/-- Of pairs that are put in unless their key has a value, the first one of a key is found. -/
theorem lookup?_foldl_insertNew (l : List (String × α)) (m : SortedMap α) (key : String) :
    (l.foldl (fun m p => m.insertNew p.1 p.2) m).lookup? key =
      (m.lookup? key).or (find? key l) := by
  induction l generalizing m with
  | nil => exact (Option.or_none).symm
  | cons p l ih =>
    rw [List.foldl_cons, ih, lookup?_insertNew, Option.or_assoc, find?]
    split <;> rfl

theorem nodup_keys (m : SortedMap α) : (m.toList.map Prod.fst).Nodup := by
  apply List.Pairwise.map (R := fun a b => a.1 < b.1) Prod.fst _ m.sorted
  intro a b hlt heq
  exact String.lt_irrefl _ (heq ▸ hlt)

/-- The map of the pairs of a map is this map. -/
theorem ofList_toList (m : SortedMap α) : ofList m.toList = m :=
  eq_of_perm (ofList_perm m.nodup_keys)

/-- Lists with the same keys in the same order are equal as soon as they make the same map. -/
theorem eq_of_ofList_eq {l l' : List (String × α)} (hkeys : l.map Prod.fst = l'.map Prod.fst)
    (hnodup : (l.map Prod.fst).Nodup) (h : (ofList l).toList = (ofList l').toList) : l = l' := by
  have hperm : l.Perm l' := by
    have hl' := ofList_perm (hkeys ▸ hnodup)
    rw [← h] at hl'
    exact (ofList_perm hnodup).symm.trans hl'
  clear h
  induction l generalizing l' with
  | nil => exact (List.nil_perm.1 hperm).symm
  | cons p l ih =>
    obtain _ | ⟨q, l'⟩ := l'
    · cases hkeys
    · obtain ⟨-, htail⟩ := List.cons.inj hkeys
      -- the pair with the first key is the first one in both
      have hfirst : q = p := by
        rcases List.mem_cons.1 (hperm.mem_iff.1 List.mem_cons_self) with h | h
        · exact h.symm
        · have hmem := List.mem_map_of_mem (f := Prod.fst) h
          rw [← htail] at hmem
          exact absurd hmem (List.nodup_cons.1 hnodup).1
      subst hfirst
      rw [ih htail (List.nodup_cons.1 hnodup).2 hperm.cons_inv]

end WitnessLedger.SortedMap
