import WitnessLedger.Proofs.Merkle.Shape
import Mathlib.Data.List.Basic

/-!
# Soundness of proofs

A proof that verifies need not come from the tree: whoever makes it chooses the leaf, the siblings,
the sides and how many of them there are.  Walking down from the root, the proof and the tree name
the same nodes as long as no two different pairs are combined to one digest.  Where the path is as
long as the tree is high, the walk ends at a leaf.  A shorter path ends above, at a node that is no
leaf, and a longer one goes on below a leaf, which then is itself a digest of two others.  Leaves
and inner nodes are hashed without a tag, so that neither can be told from the other.

## Key results

- `descend`: how far a path that leads to the top of a tree goes along with the tree
- `sound_verifyAgainst`: what a proof that verifies against a tree can be
-/

namespace WitnessLedger.Merkle

/-- The pair that a step combines. -/
def Step.pair (current : Digest) (s : Step) : Digest × Digest :=
  match s.side with
  | .left => (s.sibling, current)
  | .right => (current, s.sibling)

/-- The pairs that are combined on the way from a leaf along a path. -/
def pathPairs : Digest → List Step → List (Digest × Digest)
  | _, [] => []
  | current, s :: path => s.pair current :: pathPairs (s.combine current) path

/-- Whether a pair of some and a different pair of others are combined to the same digest. -/
def PairsCollide (xs ys : List (Digest × Digest)) : Prop :=
  ∃ x ∈ xs, ∃ y ∈ ys, x ≠ y ∧ combinePair x = combinePair y

theorem PairsCollide.mono {xs xs' ys : List (Digest × Digest)} (h : PairsCollide xs ys)
    (hsub : xs ⊆ xs') : PairsCollide xs' ys := by
  obtain ⟨x, hx, hrest⟩ := h
  exact ⟨x, hsub hx, hrest⟩

theorem Step.combine_eq (current : Digest) (s : Step) :
    s.combine current = combinePair (s.pair current) := by
  unfold Step.combine Step.pair
  cases s.side <;> rfl

theorem foldPath_concat (leaf : Digest) (path : List Step) (s : Step) :
    foldPath leaf (path ++ [s]) = combinePair (s.pair (foldPath leaf path)) := by
  unfold foldPath
  rw [List.foldl_append]
  exact Step.combine_eq _ s

theorem pathPairs_append (leaf : Digest) (path rest : List Step) :
    pathPairs leaf (path ++ rest) = pathPairs leaf path ++ pathPairs (foldPath leaf path) rest := by
  induction path generalizing leaf with
  | nil => rfl
  | cons s path ih =>
    rw [List.cons_append, pathPairs, pathPairs, ih, List.cons_append]
    rfl

/-- What a path combines with the step after it is among the pairs of the whole path. -/
theorem pair_mem_pathPairs (leaf : Digest) (path : List Step) (s : Step) (rest : List Step) :
    s.pair (foldPath leaf path) ∈ pathPairs leaf (path ++ s :: rest) := by
  rw [pathPairs_append, pathPairs]
  exact List.mem_append_right _ (List.mem_cons_self ..)

/-- Of two neighbours, the one that a step starts from stands at the place that its side says. -/
theorem getElem?_of_pair {level : List Digest} {i : Nat} {current : Digest} {s : Step}
    (h : (pairs level)[i]? = some (s.pair current)) :
    level[s.side.digit + 2 * i]? = some current := by
  obtain ⟨hleft, hright⟩ := getElem?_of_pairs h
  unfold Step.pair at hleft hright
  cases hside : s.side with
  | left =>
    rw [hside] at hright
    rw [Side.digit, Nat.add_comm]
    exact hright
  | right =>
    rw [hside] at hleft
    rw [Side.digit, Nat.zero_add]
    exact hleft

/-- A path that leads to the top of a tree goes along with the tree from there down to the lowest
    level, unless two pairs collide on the way or the path is too short for it. -/
theorem descend {height : Nat} {level : List Digest} {leaf : Digest} {path : List Step}
    (hlength : level.length = 2 ^ height) (htop : foldPath leaf path = top height level) :
    (∃ low high, path = low ++ high ∧ high.length = height ∧
        level[place high]? = some (foldPath leaf low)) ∨
      PairsCollide (pairs (levels height level)) (pathPairs leaf path) ∨
      (path.length < height ∧ leaf ∈ parents (levels height level)) := by
  induction height generalizing level with
  | zero =>
    obtain ⟨d, rfl⟩ := List.length_eq_one_iff.1 hlength
    refine .inl ⟨path, [], (List.append_nil path).symm, rfl, ?_⟩
    show some d = some (foldPath leaf path)
    rw [htop]
    rfl
  | succ height ih =>
    have hfull : level.length = 2 * 2 ^ height := by rw [hlength, Nat.pow_succ']
    have hlevels : levels (height + 1) level = level ++ levels height (parents level) := rfl
    obtain ⟨above, habove⟩ := levels_eq height (parents level)
    rw [hlevels, pairs_append hfull, parents_append hfull]
    rcases ih (length_parents_of_pow hlength) htop with ⟨low, high, hpath, hhigh, hnode⟩ | h | h
    · rcases List.eq_nil_or_concat' low with rfl | ⟨low, s, rfl⟩
      · -- nothing of the path is left, so that the leaf is the parent that it has led to
        refine .inr (.inr ⟨?_, List.mem_append_left _ (List.mem_of_getElem? hnode)⟩)
        rw [hpath, List.nil_append, hhigh]
        exact Nat.lt_succ_self height
      · rw [List.append_assoc] at hpath
        rw [parents_eq_map_pairs, List.getElem?_map, Option.map_eq_some_iff,
          foldPath_concat] at hnode
        obtain ⟨x, hx, hcombined⟩ := hnode
        by_cases hsame : x = s.pair (foldPath leaf low)
        · -- the same pair in the tree and on the path, and the path goes on from one half of it
          subst hsame
          refine .inl ⟨low, s :: high, hpath, by rw [List.length_cons, hhigh], ?_⟩
          rw [place_cons]
          exact getElem?_of_pair hx
        · refine .inr (.inl ⟨x, List.mem_append_left _ (List.mem_of_getElem? hx), _, ?_, hsame,
            hcombined⟩)
          rw [hpath]
          exact pair_mem_pathPairs leaf low s high
    · exact .inr (.inl (h.mono (List.subset_append_right _ _)))
    · exact .inr (.inr ⟨Nat.lt_succ_of_lt h.1, List.mem_append_right _ h.2⟩)

theorem computedRoot_of_verifyAgainst {p : Proof} {root : Digest}
    (h : p.verifyAgainst root = true) : foldPath p.leafHash p.path = root := by
  unfold Proof.verifyAgainst Proof.verify at h
  rw [Bool.and_eq_true, beq_iff_eq, beq_iff_eq] at h
  exact h.2.trans h.1

/-- Whatever proof verifies against the root of the tree over some leaves, one of four things is the
    case.  It proves a leaf: its path is as long as the tree is high, and its leaf is the one at the
    place that the sides spell.  Or a pair of the tree and another pair that the path combines give
    the same digest.  Or the path is too short, and its leaf is a node above the leaves.  Or the
    path is too long, and one of the leaves of the tree is a digest that the path combines. -/
theorem sound_verifyAgainst {leaves : List Digest} (hne : leaves ≠ []) {p : Proof}
    (h : p.verifyAgainst (Tree.build leaves).root = true) :
    (p.path.length = (width leaves.length).log2 ∧
        (padded leaves)[place p.path]? = some p.leafHash) ∨
      PairsCollide (pairs (Tree.build leaves).nodes) (pathPairs p.leafHash p.path) ∨
      (p.path.length < (width leaves.length).log2 ∧
        p.leafHash ∈ (Tree.build leaves).nodes.drop (width leaves.length)) ∨
      ((width leaves.length).log2 < p.path.length ∧
        ∃ d ∈ leaves, ∃ x ∈ pathPairs p.leafHash p.path, combinePair x = d) := by
  have hroot := computedRoot_of_verifyAgainst h
  rw [Tree.root_build hne, heightFor_eq_clog, filledUp_eq_padded hne] at hroot
  have hnodes : (Tree.build leaves).nodes =
      levels (Nat.clog 2 leaves.length) (padded leaves) := by
    rw [Tree.build_of_ne_nil hne, heightFor_eq_clog, filledUp_eq_padded hne]
  have habove : (Tree.build leaves).nodes.drop (width leaves.length) =
      parents (Tree.build leaves).nodes := by
    rw [hnodes, parents_levels (length_padded hne), length_padded hne]
    rfl
  rw [habove, hnodes, log2_width]
  rcases descend (length_padded hne) hroot with ⟨low, high, hpath, hhigh, hnode⟩ | h | h
  · rcases List.eq_nil_or_concat' low with rfl | ⟨low, s, rfl⟩
    · -- the path ends where the tree does
      rw [List.nil_append] at hpath
      rw [hpath]
      exact .inl ⟨hhigh, hnode⟩
    · -- the path goes on below a leaf, which is then combined by the step to it
      have hleaf := mem_of_mem_padded hne (List.mem_of_getElem? hnode)
      have hcombined := (foldPath_concat p.leafHash low s).symm
      refine .inr (.inr (.inr ⟨?_, _, hleaf, _, ?_, hcombined⟩))
      · rw [hpath]
        simp only [List.length_append, List.length_singleton]
        omega
      · rw [hpath, List.append_assoc]
        exact pair_mem_pathPairs p.leafHash low s high
  · exact .inr (.inl h)
  · exact .inr (.inr (.inl h))

/-- A proof over four leaves that leaves out the lowest step: what it names as its leaf is the node
    above the first two. -/
theorem sound_shortProof :
    let digest (b : UInt8) : Digest := ⟨List.replicate 32 b, List.length_replicate⟩
    let leaves := [digest 1, digest 2, digest 3, digest 4]
    let p : Proof :=
      { leafIndex := 0, leafHash := Digest.combine (digest 1) (digest 2)
        path := [⟨Digest.combine (digest 3) (digest 4), .right⟩]
        root := (Tree.build leaves).root }
    leaves ≠ [] ∧ p.verifyAgainst (Tree.build leaves).root = true ∧
      ((p.path.length = (width leaves.length).log2 ∧
          (padded leaves)[place p.path]? = some p.leafHash) ∨
        PairsCollide (pairs (Tree.build leaves).nodes) (pathPairs p.leafHash p.path) ∨
        (p.path.length < (width leaves.length).log2 ∧
          p.leafHash ∈ (Tree.build leaves).nodes.drop (width leaves.length)) ∨
        ((width leaves.length).log2 < p.path.length ∧
          ∃ d ∈ leaves, ∃ x ∈ pathPairs p.leafHash p.path, combinePair x = d)) := by
  intro digest leaves p
  have hne : leaves ≠ [] := List.cons_ne_nil _ _
  have hverify : p.verifyAgainst (Tree.build leaves).root = true := by
    unfold Proof.verifyAgainst Proof.verify
    rw [Bool.and_eq_true, beq_iff_eq, beq_iff_eq]
    have hfilled : filledUp leaves = leaves := by decide +kernel
    have hheight : heightFor leaves.length = 2 := by decide
    refine ⟨rfl, ?_⟩
    show foldPath p.leafHash p.path = (Tree.build leaves).root
    rw [Tree.root_build hne, hfilled, hheight]
    rfl
  exact ⟨hne, hverify, sound_verifyAgainst hne hverify⟩

end WitnessLedger.Merkle
