/-! # Sorted maps

Maps from texts to values, kept as a list in rising order of the keys, so that what is written
out of a map does not depend on how it was built.  Keys are compared code point by code point.

* `lookup?_insert`     an inserted value is found, and no other key is affected
* `insertNew`          keeps the value that is there
* `ofList`             the last value of a key wins -/

namespace WitnessLedger

/-- A map from texts to values in rising order of its keys. -/
structure SortedMap (α : Type) where
  toList : List (String × α)
  sorted : toList.Pairwise fun a b => a.1 < b.1

/-- A set of texts in rising order. -/
abbrev SortedSet := SortedMap Unit

namespace SortedMap

variable {α : Type}

/-- Puts a value into a sorted list in place of the one that its key has there. -/
def insertInto (key : String) (value : α) : List (String × α) → List (String × α)
  | [] => [(key, value)]
  | (k, v) :: rest =>
    if key < k then (key, value) :: (k, v) :: rest
    else if key = k then (key, value) :: rest
    else (k, v) :: insertInto key value rest

theorem key_mem_insertInto {key : String} {value : α} {l : List (String × α)} {p : String × α}
    (h : p ∈ insertInto key value l) : p = (key, value) ∨ p ∈ l := by
  induction l with
  | nil => simpa [insertInto] using h
  | cons q rest ih =>
    obtain ⟨k, v⟩ := q
    rw [insertInto] at h
    split at h
    · simpa using h
    · split at h
      · rcases List.mem_cons.1 h with h | h
        · exact .inl h
        · exact .inr (List.mem_cons_of_mem _ h)
      · rcases List.mem_cons.1 h with h | h
        · exact .inr (by simp [h])
        · rcases ih h with h | h
          · exact .inl h
          · exact .inr (List.mem_cons_of_mem _ h)

theorem lt_of_not_lt_of_ne {a b : String} (h : ¬a < b) (hne : a ≠ b) : b < a := by
  rcases Classical.em (b < a) with h' | h'
  · exact h'
  · exact absurd (String.le_antisymm (String.not_lt.1 h') (String.not_lt.1 h)) hne

theorem pairwise_insertInto {key : String} {value : α} {l : List (String × α)}
    (h : l.Pairwise fun a b => a.1 < b.1) :
    (insertInto key value l).Pairwise fun a b => a.1 < b.1 := by
  induction l with
  | nil => simp [insertInto]
  | cons q rest ih =>
    obtain ⟨k, v⟩ := q
    rw [List.pairwise_cons] at h
    rw [insertInto]
    split
    · next hlt =>
      refine List.pairwise_cons.2 ⟨fun p hp => ?_, List.pairwise_cons.2 h⟩
      rcases List.mem_cons.1 hp with rfl | hp
      · exact hlt
      · exact String.lt_trans hlt (h.1 p hp)
    · next hlt =>
      split
      · next heq => subst heq; exact List.pairwise_cons.2 h
      · next hne =>
        refine List.pairwise_cons.2 ⟨fun p hp => ?_, ih h.2⟩
        rcases key_mem_insertInto hp with rfl | hp
        · exact lt_of_not_lt_of_ne hlt hne
        · exact h.1 p hp

/-- The map without keys. -/
def empty : SortedMap α := ⟨[], List.Pairwise.nil⟩

instance : Inhabited (SortedMap α) := ⟨empty⟩

/-- Puts a value in place of the one that its key has. -/
def insert (m : SortedMap α) (key : String) (value : α) : SortedMap α :=
  ⟨insertInto key value m.toList, pairwise_insertInto m.sorted⟩

/-- The value of a key in a list of pairs. -/
def find? (key : String) : List (String × α) → Option α
  | [] => none
  | (k, v) :: rest => if k = key then some v else find? key rest

/-- The value of a key. -/
def lookup? (m : SortedMap α) (key : String) : Option α := find? key m.toList

/-- Puts a value in unless its key has one. -/
def insertNew (m : SortedMap α) (key : String) (value : α) : SortedMap α :=
  if (m.lookup? key).isSome then m else m.insert key value

/-- The map of a list of pairs; the last value of a key wins. -/
def ofList (l : List (String × α)) : SortedMap α :=
  l.foldl (fun m p => m.insert p.1 p.2) empty

/-- The keys in rising order. -/
def keys (m : SortedMap α) : List String := m.toList.map Prod.fst

/-- The values in the order of their keys. -/
def values (m : SortedMap α) : List α := m.toList.map Prod.snd

/-- Whether a key has a value. -/
def contains (m : SortedMap α) (key : String) : Bool := (m.lookup? key).isSome

theorem find?_insertInto (key k : String) (value : α) (l : List (String × α)) :
    find? k (insertInto key value l) = if key = k then some value else find? k l := by
  induction l with
  | nil => rfl
  | cons q rest ih =>
    obtain ⟨a, v⟩ := q
    simp only [insertInto]
    split
    · rfl
    · split
      · next heq => subst heq; by_cases h : key = k <;> simp [find?, h]
      · next hne =>
        by_cases h : a = k
        · subst h; simp [find?, hne]
        · simp [find?, h, ih]

/-- An inserted value is found, and no other key is affected. -/
theorem lookup?_insert (m : SortedMap α) (key k : String) (value : α) :
    (m.insert key value).lookup? k = if key = k then some value else m.lookup? k :=
  find?_insertInto key k value m.toList

end SortedMap

namespace SortedSet

/-- The set of the members of a list. -/
def ofMembers (l : List String) : SortedSet := SortedMap.ofList (l.map fun s => (s, ()))

/-- The members in rising order. -/
def members (s : SortedSet) : List String := SortedMap.keys s

end SortedSet

end WitnessLedger
