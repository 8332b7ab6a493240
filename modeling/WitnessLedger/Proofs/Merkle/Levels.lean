import WitnessLedger.Merkle.Tree
import Mathlib.Algebra.Ring.Nat

/-!
# Levels of a tree

The nodes of a tree over some leaves are the filled-up leaves, whose number is a power of two,
followed by the levels above, each half as long as the one below and made of its pairs of
neighbours.  `top` is the node that they end in, reached level by level and without the list.

## Key results

- `length_filledUp`: the leaves are filled up to a power of two, and keep their places
- `getElem?_parents`: a parent combines the two nodes below it
- `root_build`: the root of a tree is the top over its filled-up leaves
-/

namespace WitnessLedger.Merkle

/-- The node that the levels above a level end in, `height` of them. -/
def top : Nat → List Digest → Digest
  | 0, level => level.headD emptyRoot
  | height + 1, level => top height (parents level)

/-! ## Filling up -/

theorem le_widthFor (n : Nat) : n ≤ widthFor n := by
  rw [widthFor, heightFor, Nat.pow_eq]
  split
  · omega
  · have hlt : n - 1 < 2 ^ ((n - 1).log2 + 1) := Nat.lt_log2_self
    omega

theorem filledUp_eq {leaves : List Digest} (h : leaves ≠ []) :
    ∃ filling, filledUp leaves = leaves ++ filling ∧
      leaves.length + filling.length = widthFor leaves.length := by
  have hlast := List.getLast?_eq_some_getLast h
  refine ⟨List.replicate (widthFor leaves.length - leaves.length) (leaves.getLast h), ?_, ?_⟩
  · rw [filledUp, hlast]
  · have hle := le_widthFor leaves.length
    rw [List.length_replicate]
    omega

/-- The leaves are filled up to a power of two. -/
theorem length_filledUp {leaves : List Digest} (h : leaves ≠ []) :
    (filledUp leaves).length = 2 ^ heightFor leaves.length := by
  obtain ⟨filling, heq, hlength⟩ := filledUp_eq h
  rw [heq, List.length_append, hlength, widthFor, Nat.pow_eq]

/-- The leaves keep their places. -/
theorem getElem?_filledUp {leaves : List Digest} {i : Nat} {d : Digest}
    (h : leaves[i]? = some d) : (filledUp leaves)[i]? = some d := by
  have hlt := (List.getElem?_eq_some_iff.1 h).1
  have hne : leaves ≠ [] := List.ne_nil_of_length_pos (by omega)
  obtain ⟨filling, heq, -⟩ := filledUp_eq hne
  rw [heq, List.getElem?_append_left hlt, h]

/-! ## Parents -/

theorem length_parents (level : List Digest) : (parents level).length = level.length / 2 := by
  match level with
  | [] => rfl
  | [_] => simp [parents]
  | left :: right :: rest =>
    simp only [parents, List.length_cons, length_parents rest]
    omega

theorem length_parents_of_pow {level : List Digest} {height : Nat}
    (h : level.length = 2 ^ (height + 1)) : (parents level).length = 2 ^ height := by
  rw [length_parents, h, Nat.pow_succ]
  omega

/-- A parent combines the two nodes below it. -/
theorem getElem?_parents {level : List Digest} {i : Nat} {left right : Digest}
    (hleft : level[2 * i]? = some left) (hright : level[2 * i + 1]? = some right) :
    (parents level)[i]? = some (Digest.combine left right) := by
  induction i generalizing level with
  | zero =>
    match level, hleft, hright with
    | a :: b :: rest, hleft, hright =>
      cases hleft
      cases hright
      rfl
  | succ i ih =>
    match level, hleft, hright with
    | a :: b :: rest, hleft, hright =>
      rw [parents, List.getElem?_cons_succ]
      refine ih ?_ ?_
      · rwa [show 2 * (i + 1) = 2 * i + 1 + 1 by omega, List.getElem?_cons_succ,
          List.getElem?_cons_succ] at hleft
      · rwa [show 2 * (i + 1) + 1 = 2 * i + 1 + 1 + 1 by omega, List.getElem?_cons_succ,
          List.getElem?_cons_succ] at hright

/-! ## All levels -/

theorem levels_eq (height : Nat) (level : List Digest) :
    ∃ above, levels height level = level ++ above := by
  cases height with
  | zero => exact ⟨[], (List.append_nil _).symm⟩
  | succ height => exact ⟨levels height (parents level), rfl⟩

theorem getLast?_levels {height : Nat} {level : List Digest} (h : level.length = 2 ^ height) :
    (levels height level).getLast? = some (top height level) := by
  induction height generalizing level with
  | zero =>
    obtain ⟨d, rfl⟩ := List.length_eq_one_iff.1 h
    rfl
  | succ height ih =>
    rw [levels, List.getLast?_append, ih (length_parents_of_pow h)]
    rfl

namespace Tree

theorem build_of_ne_nil {leaves : List Digest} (h : leaves ≠ []) :
    build leaves = ⟨levels (heightFor leaves.length) (filledUp leaves), leaves.length⟩ := by
  rw [build, if_neg (by simpa using h)]

/-- The root of a tree is the top over its filled-up leaves. -/
theorem root_build {leaves : List Digest} (h : leaves ≠ []) :
    (build leaves).root = top (heightFor leaves.length) (filledUp leaves) := by
  rw [build_of_ne_nil h, root, getLast?_levels (length_filledUp h)]
  rfl

end Tree

end WitnessLedger.Merkle
