import Mathlib.Data.List.Forall2
import Mathlib.Data.List.Nodup

/-!
# Lists with keys, and lists side by side

What stands in a list is found by a key that is its own, and what stands in one of two lists that
are related in order has its counterpart in the other.

## Key results

- `find?_key_eq_some`: where keys are unique, what stands in a list is found under its key
- `nodup_map_concat`: keys stay unique when something with a new key is added
- `exists_of_forall₂`, `map_eq_of_forall₂`: what lists have in common that are related in order
-/

namespace WitnessLedger

section Keys

variable {α κ : Type} {key : α → κ} {xs : List α}

/-- What stands in a list is found under its key, where keys are unique. -/
theorem find?_key_eq_some [BEq κ] [LawfulBEq κ] (hnodup : (xs.map key).Nodup) {x : α}
    (hx : x ∈ xs) : xs.find? (key · == key x) = some x := by
  cases hfound : xs.find? (key · == key x) with
  | none =>
    have := List.find?_eq_none.1 hfound x hx
    simp at this
  | some y =>
    have hkey : key y = key x := by simpa using List.find?_some hfound
    rw [List.inj_on_of_nodup_map hnodup (List.mem_of_find?_eq_some hfound) hx hkey]

/-- Keys stay unique when something with a new key is added. -/
theorem nodup_map_concat (hnodup : (xs.map key).Nodup) {x : α} (hnew : ∀ y ∈ xs, key y ≠ key x) :
    ((xs ++ [x]).map key).Nodup := by
  rw [List.map_append, List.nodup_append]
  refine ⟨hnodup, List.nodup_singleton _, ?_⟩
  rintro a ha b hb rfl
  obtain ⟨y, hy, hya⟩ := List.mem_map.1 ha
  rw [List.map_singleton, List.mem_singleton] at hb
  exact hnew y hy (hya.trans hb)

end Keys

section SideBySide

variable {α β γ : Type} {R : α → β → Prop} {as : List α} {bs : List β}

/-- Each element of the second of two lists that are related in order has its counterpart in the
    first. -/
theorem exists_of_forall₂ (h : List.Forall₂ R as bs) {b : β} (hb : b ∈ bs) : ∃ a ∈ as, R a b := by
  induction h with
  | nil => cases hb
  | cons hR _ ih =>
    rcases List.mem_cons.1 hb with rfl | hb
    · exact ⟨_, List.mem_cons_self .., hR⟩
    · obtain ⟨a, ha, hab⟩ := ih hb
      exact ⟨a, List.mem_cons_of_mem _ ha, hab⟩

/-- What related elements have in common is the same in both lists. -/
theorem map_eq_of_forall₂ (h : List.Forall₂ R as bs) {f : α → γ} {g : β → γ}
    (heq : ∀ a b, R a b → g b = f a) : bs.map g = as.map f := by
  rw [← List.forall₂_eq_eq_eq, List.forall₂_map_left_iff, List.forall₂_map_right_iff]
  exact h.flip.imp fun b a => heq a b

end SideBySide

end WitnessLedger
