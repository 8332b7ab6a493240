import WitnessLedger.Proofs.Merkle.Levels

/-!
# Proofs of inclusion

A tree over some leaves gives for each of them a proof that names the leaf and the root and leads
from the one to the other, whatever the number of leaves and the place.

## Key results

- `Tree.pathFrom_levels`: a path goes from a node of a level to the top of the levels above it
- `Tree.proveIndex_build`: each leaf has a proof
- `Tree.verifyAgainst_proveIndex`: the proof is right
-/

namespace WitnessLedger.Merkle

/-- The sibling of a node stands in the level, and combined with it gives the parent of both. -/
theorem exists_sibling {level : List Digest} {height i : Nat} {d : Digest}
    (hlength : level.length = 2 ^ (height + 1)) (hd : level[i]? = some d) :
    ∃ sibling, level[if i % 2 = 0 then i + 1 else i - 1]? = some sibling ∧
      (parents level)[i / 2]? =
        some (Step.combine d ⟨sibling, if i % 2 = 0 then .right else .left⟩) := by
  have hlt := (List.getElem?_eq_some_iff.1 hd).1
  rw [hlength, Nat.pow_succ] at hlt
  by_cases heven : i % 2 = 0
  · -- a node at an even place stands on the left of its sibling
    have hsibling : i + 1 < level.length := by rw [hlength, Nat.pow_succ]; omega
    rw [if_pos heven, if_pos heven]
    refine ⟨level[i + 1], List.getElem?_eq_getElem hsibling, getElem?_parents ?_ ?_⟩
    · rwa [show 2 * (i / 2) = i by omega]
    · rw [show 2 * (i / 2) + 1 = i + 1 by omega]
      exact List.getElem?_eq_getElem hsibling
  · have hsibling : i - 1 < level.length := by rw [hlength, Nat.pow_succ]; omega
    rw [if_neg heven, if_neg heven]
    refine ⟨level[i - 1], List.getElem?_eq_getElem hsibling, getElem?_parents ?_ ?_⟩
    · rw [show 2 * (i / 2) = i - 1 by omega]
      exact List.getElem?_eq_getElem hsibling
    · rwa [show 2 * (i / 2) + 1 = i by omega]

namespace Tree

theorem node_eq_ok {t : Tree} {i : Nat} {d : Digest} (h : t.nodes[i]? = some d) :
    t.node i = .ok d := by
  rw [node, h]

/-- A path goes from a node of a level to the top of the levels above it.  The levels below, which
    stand before it in the list, do not matter. -/
theorem pathFrom_levels (below : List Digest) (leafCount : Nat) {height : Nat}
    {level : List Digest} {i : Nat} {d : Digest} (hlength : level.length = 2 ^ height)
    (hd : level[i]? = some d) :
    ∃ path, pathFrom ⟨below ++ levels height level, leafCount⟩ height below.length i = .ok path ∧
      foldPath d path = top height level := by
  induction height generalizing below level i d with
  | zero =>
    obtain ⟨x, rfl⟩ := List.length_eq_one_iff.1 hlength
    have hi := (List.getElem?_eq_some_iff.1 hd).1
    rw [List.length_singleton, Nat.lt_one_iff] at hi
    subst hi
    cases hd
    exact ⟨[], rfl, rfl⟩
  | succ height ih =>
    obtain ⟨sibling, hsibling, hparent⟩ := exists_sibling hlength hd
    -- the level becomes one of those below, and the walk goes on from the parent
    obtain ⟨path, hpath, htop⟩ := ih (below ++ level) (length_parents_of_pow hlength) hparent
    have hnode : node ⟨below ++ levels (height + 1) level, leafCount⟩
        (below.length + if i % 2 = 0 then i + 1 else i - 1) = .ok sibling := by
      refine node_eq_ok ?_
      show (below ++ (level ++ levels height (parents level)))[_]? = _
      rw [List.getElem?_append_right (Nat.le_add_right _ _), Nat.add_sub_cancel_left,
        List.getElem?_append_left (List.getElem?_eq_some_iff.1 hsibling).1, hsibling]
    rw [List.append_assoc, List.length_append, hlength] at hpath
    refine ⟨_ :: path, ?_, htop⟩
    rw [pathFrom, hnode, Nat.pow_eq]
    show (pathFrom ⟨below ++ (level ++ levels height (parents level)), leafCount⟩ _ _ _ >>= _) = _
    rw [hpath]
    rfl

/-- Each leaf has a proof that names it and the root and leads from the one to the other. -/
theorem proveIndex_build {leaves : List Digest} {i : Nat} {d : Digest} (h : leaves[i]? = some d) :
    ∃ path, (build leaves).proveIndex i = .ok ⟨i, d, path, (build leaves).root⟩ ∧
      foldPath d path = (build leaves).root := by
  have hlt := (List.getElem?_eq_some_iff.1 h).1
  have hne : leaves ≠ [] := List.ne_nil_of_length_pos (by omega)
  have hfilled := getElem?_filledUp h
  obtain ⟨path, hpath, htop⟩ := pathFrom_levels [] leaves.length (length_filledUp hne) hfilled
  rw [List.nil_append, List.length_nil, ← build_of_ne_nil hne] at hpath
  have hleaf : (build leaves).node i = .ok d := by
    refine node_eq_ok ?_
    obtain ⟨above, hlevels⟩ := levels_eq (heightFor leaves.length) (filledUp leaves)
    rw [build_of_ne_nil hne]
    show (levels (heightFor leaves.length) (filledUp leaves))[i]? = some d
    rw [hlevels, List.getElem?_append_left (List.getElem?_eq_some_iff.1 hfilled).1, hfilled]
  have hcount : (build leaves).leafCount = leaves.length := by rw [build_of_ne_nil hne]
  refine ⟨path, ?_, htop.trans (root_build hne).symm⟩
  rw [proveIndex, hcount, if_neg (Nat.not_le.2 hlt), hpath, hleaf]
  rfl

/-- The proof of a leaf is right. -/
theorem verifyAgainst_proveIndex {leaves : List Digest} {i : Nat} {d : Digest}
    (h : leaves[i]? = some d) :
    ∃ p, (build leaves).proveIndex i = .ok p ∧ p.leafHash = d ∧
      p.verifyAgainst (build leaves).root = true := by
  obtain ⟨path, hproof, hpath⟩ := proveIndex_build h
  refine ⟨_, hproof, rfl, ?_⟩
  simp [Proof.verifyAgainst, Proof.verify, Proof.computedRoot, hpath]

end Tree

end WitnessLedger.Merkle
