import WitnessLedger.Digest.Tagged
import Mathlib.Data.List.Nodup

/-!
# Collisions

Two different strings with the same digest must exist, since digests are short, and that they do
says nothing.  What counts is that they are among the strings that have been hashed:
`Digest.Collide` asks for one in each of two lists, where it can be looked for.

## Key results

- `eq_or_collide`: strings with the same digest are the same, or collide
- `map_eq_or_collide`: this for lists of strings
-/

namespace WitnessLedger.Digest

/-- Whether one of some strings and one of others are different and have the same digest. -/
def Collide (xs ys : List (List UInt8)) : Prop := ∃ x ∈ xs, ∃ y ∈ ys, x ≠ y ∧ sha256 x = sha256 y

instance (xs ys : List (List UInt8)) : Decidable (Collide xs ys) :=
  inferInstanceAs (Decidable (∃ x ∈ xs, ∃ y ∈ ys, x ≠ y ∧ sha256 x = sha256 y))

variable {xs ys xs' ys' : List (List UInt8)}

/-- A collision is still one among more strings. -/
theorem Collide.mono (h : Collide xs ys) (hx : xs ⊆ xs') (hy : ys ⊆ ys') : Collide xs' ys' := by
  obtain ⟨x, hxs, y, hys, hne, heq⟩ := h
  exact ⟨x, hx hxs, y, hy hys, hne, heq⟩

/-- Strings with the same digest are the same, or collide. -/
theorem eq_or_collide {x y : List UInt8} (h : sha256 x = sha256 y) (hx : x ∈ xs) (hy : y ∈ ys) :
    x = y ∨ Collide xs ys := by
  by_cases heq : x = y
  · exact .inl heq
  · exact .inr ⟨x, hx, y, hy, heq, h⟩

/-- Lists with the same digests in the same order are the same, or collide. -/
theorem map_eq_or_collide (h : xs.map sha256 = ys.map sha256) : xs = ys ∨ Collide xs ys := by
  induction xs generalizing ys with
  | nil =>
    rw [List.map_nil, eq_comm, List.map_eq_nil_iff] at h
    exact .inl h.symm
  | cons x xs ih =>
    cases ys with
    | nil => cases h
    | cons y ys =>
      rw [List.map_cons, List.map_cons, List.cons.injEq] at h
      obtain ⟨hhead, htail⟩ := h
      have hfirst : x = y ∨ Collide (x :: xs) (y :: ys) :=
        eq_or_collide hhead (List.mem_cons_self ..) (List.mem_cons_self ..)
      rcases hfirst with rfl | hcollide
      · rcases ih htail with rfl | hcollide
        · exact .inl rfl
        · exact .inr (hcollide.mono (List.subset_cons_self ..) (List.subset_cons_self ..))
      · exact .inr hcollide

/-- Strings with different digests do not collide. -/
theorem not_collide {zs : List (List UInt8)} (h : (zs.map sha256).Nodup) (hx : xs ⊆ zs)
    (hy : ys ⊆ zs) : ¬ Collide xs ys := by
  rintro ⟨x, hxs, y, hys, hne, heq⟩
  exact hne (List.inj_on_of_nodup_map h (hx hxs) (hy hys) heq)

end WitnessLedger.Digest
