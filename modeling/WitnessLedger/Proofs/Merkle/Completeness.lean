import WitnessLedger.Proofs.Merkle.Inclusion
import WitnessLedger.Proofs.Merkle.Shape

/-!
# Completeness of trees

A tree is a flat list of levels, and its proofs are found by counting places in that list.  What
comes out is the tree that one would define by recursion: its root combines the roots over the two
halves of the filled-up leaves, down to single leaves.  Each leaf has a proof, which leads to this
root and spells the place of the leaf, and nothing else has one.

## Key results

- `top_append`: the top over two levels side by side combines their tops
- `halvedRoot_eq_top`: going up level by level leads where going down by halves does
- `Tree.complete_build`: nodes, root and proofs of the tree over any leaves
-/

namespace WitnessLedger.Merkle

/-- The root over some digests by halves: a single digest is its own root, and the root over more
    of them combines the roots over their halves. -/
def halvedRoot (ds : List Digest) : Digest :=
  if h : ds.length ≤ 1 then ds.headD emptyRoot
  else Digest.combine (halvedRoot (ds.take (ds.length / 2)))
    (halvedRoot (ds.drop (ds.length / 2)))
termination_by ds.length
decreasing_by
  · rw [List.length_take]
    omega
  · rw [List.length_drop]
    omega

/-- The top over two levels side by side combines their tops. -/
theorem top_append {height : Nat} {xs ys : List Digest} (hxs : xs.length = 2 ^ height)
    (hys : ys.length = 2 ^ height) :
    top (height + 1) (xs ++ ys) = Digest.combine (top height xs) (top height ys) := by
  induction height generalizing xs ys with
  | zero =>
    obtain ⟨x, rfl⟩ := List.length_eq_one_iff.1 hxs
    obtain ⟨y, rfl⟩ := List.length_eq_one_iff.1 hys
    rfl
  | succ height ih =>
    have hpairs : xs.length = 2 * 2 ^ height := by rw [hxs, Nat.pow_succ']
    have hparents := ih (length_parents_of_pow hxs) (length_parents_of_pow hys)
    calc top (height + 2) (xs ++ ys)
        = top (height + 1) (parents xs ++ parents ys) := by rw [top, parents_append hpairs]
      _ = Digest.combine (top height (parents xs)) (top height (parents ys)) := hparents
      _ = Digest.combine (top (height + 1) xs) (top (height + 1) ys) := rfl

/-- Going up level by level leads where going down by halves does. -/
theorem halvedRoot_eq_top {height : Nat} {ds : List Digest} (h : ds.length = 2 ^ height) :
    halvedRoot ds = top height ds := by
  induction height generalizing ds with
  | zero =>
    have hsingle : ds.length ≤ 1 := by omega
    rw [halvedRoot, dif_pos hsingle]
    rfl
  | succ height ih =>
    have hpos : 0 < 2 ^ height := Nat.two_pow_pos height
    have hlength : ds.length = 2 * 2 ^ height := by rw [h, Nat.pow_succ']
    have hmany : ¬ ds.length ≤ 1 := by omega
    have hhalf : ds.length / 2 = 2 ^ height := by omega
    have hleft : (ds.take (2 ^ height)).length = 2 ^ height := by
      rw [List.length_take]
      omega
    have hright : (ds.drop (2 ^ height)).length = 2 ^ height := by
      rw [List.length_drop]
      omega
    rw [halvedRoot, dif_neg hmany, hhalf, ih hleft, ih hright, ← top_append hleft hright,
      List.take_append_drop]

namespace Tree

/-- What a tree over some leaves has to be: the nodes of a full tree, the root by halves, a proof
    for each of the leaves, and no proof for anything else. -/
structure Complete (t : Tree) (leaves : List Digest) : Prop where
  length_nodes : t.nodes.length = 2 * width leaves.length - 1
  root_eq : t.root = halvedRoot (padded leaves)
  /-- The proof of a leaf names it and its place, spells the place and leads to the root. -/
  proof : ∀ i d, leaves[i]? = some d → ∃ p, t.proveIndex i = .ok p ∧ p.leafIndex = i ∧
    p.leafHash = d ∧ p.path.length = (width leaves.length).log2 ∧ place p.path = i ∧
    p.computedRoot = t.root ∧ p.verifyAgainst t.root = true
  noLeaf : ∀ i, leaves.length ≤ i → t.proveIndex i = .error .noLeaf
  /-- A digest is proved at the first place where it stands. -/
  prove_of_mem : ∀ d, d ∈ leaves → t.prove d = t.proveIndex (leaves.idxOf d)
  prove_of_notMem : ∀ d, d ∉ leaves → t.prove d = .error .noLeaf

theorem length_nodes_build (leaves : List Digest) :
    (build leaves).nodes.length = 2 * width leaves.length - 1 := by
  by_cases h : leaves = []
  · rw [h]
    rfl
  · have hlevels := length_levels (length_filledUp h)
    rw [build_of_ne_nil h]
    show (levels (heightFor leaves.length) (filledUp leaves)).length = _
    rw [width, ← heightFor_eq_clog]
    omega

/-- The root of a tree is the root by halves over its filled-up leaves. -/
theorem root_build_eq_halvedRoot (leaves : List Digest) :
    (build leaves).root = halvedRoot (padded leaves) := by
  by_cases h : leaves = []
  · have hsingle : (padded []).length ≤ 1 := by decide
    rw [h, halvedRoot, dif_pos hsingle]
    rfl
  · rw [root_build h, halvedRoot_eq_top (length_padded h), filledUp_eq_padded h, heightFor_eq_clog]

/-- The path of a proof was found from the place that it is a proof for. -/
theorem pathFrom_of_proveIndex {t : Tree} {i : Nat} {p : Proof} (h : t.proveIndex i = .ok p) :
    t.pathFrom (heightFor t.leafCount) 0 i = .ok p.path := by
  unfold proveIndex at h
  by_cases hcount : t.leafCount ≤ i
  · rw [if_pos hcount] at h
    exact nomatch h
  · rw [if_neg hcount] at h
    cases hpath : t.pathFrom (heightFor t.leafCount) 0 i with
    | error miss =>
      simp only [hpath, Bind.bind, Except.bind] at h
      exact nomatch h
    | ok path =>
      cases hnode : t.node i with
      | error miss =>
        simp only [hpath, hnode, Bind.bind, Except.bind] at h
        exact nomatch h
      | ok d =>
        simp only [hpath, hnode, Bind.bind, Except.bind] at h
        cases h
        rfl

/-- The proof of a leaf spells the place of the leaf. -/
theorem spells_of_proveIndex_build {leaves : List Digest} {i : Nat} {p : Proof}
    (hi : i < leaves.length) (h : (build leaves).proveIndex i = .ok p) :
    p.path.length = Nat.clog 2 leaves.length ∧ place p.path = i := by
  obtain ⟨hlength, hplace⟩ := spells_of_pathFrom (pathFrom_of_proveIndex h)
  rw [leafCount_build, heightFor_eq_clog] at hlength hplace
  -- the place is below the width, so that no digit of it is cut off
  have hwidth : leaves.length ≤ 2 ^ Nat.clog 2 leaves.length :=
    Nat.le_pow_clog Nat.one_lt_two leaves.length
  have hlt : i < 2 ^ Nat.clog 2 leaves.length := by omega
  rw [Nat.mod_eq_of_lt hlt] at hplace
  exact ⟨hlength, hplace⟩

/-- The look-up of a digest goes through the leaves, and not through the copies behind them. -/
theorem position_build (leaves : List Digest) (d : Digest) :
    (build leaves).position d =
      match leaves.findIdx? (· == d) with
      | some i => .ok i
      | none => .error .noLeaf := by
  have hcount : ¬ (build leaves).nodes.length < leaves.length := by
    have h := congrArg List.length (take_nodes_build leaves)
    rw [List.length_take] at h
    omega
  cases hfind : leaves.findIdx? (· == d) <;>
    simp only [position, leafCount_build, if_neg hcount, take_nodes_build, hfind]

/-- Over any leaves, the tree is complete: its nodes are those of a full binary tree, its root is
    the one by halves, and there is a proof for each leaf and for nothing else. -/
theorem complete_build (leaves : List Digest) : (build leaves).Complete leaves := by
  constructor
  case length_nodes => exact length_nodes_build leaves
  case root_eq => exact root_build_eq_halvedRoot leaves
  case proof =>
    intro i d hd
    have hi := (List.getElem?_eq_some_iff.1 hd).1
    obtain ⟨path, hproof, hfold⟩ := proveIndex_build hd
    obtain ⟨hlength, hplace⟩ := spells_of_proveIndex_build hi hproof
    refine ⟨_, hproof, rfl, rfl, ?_, hplace, hfold, ?_⟩
    · rw [hlength, log2_width]
    · simp [Proof.verifyAgainst, Proof.verify, Proof.computedRoot, hfold]
  case noLeaf =>
    intro i hi
    rw [proveIndex, leafCount_build, if_pos hi]
  case prove_of_mem =>
    intro d hd
    have hfound : leaves.findIdx? (· == d) = some (leaves.idxOf d) :=
      List.findIdx?_eq_some_of_exists ⟨d, hd, beq_self_eq_true d⟩
    rw [prove, position_build, hfound]
    rfl
  case prove_of_notMem =>
    intro d hd
    have hnone : leaves.findIdx? (· == d) = none := by
      rw [List.findIdx?_eq_none_iff]
      intro x hx
      rw [beq_eq_false_iff_ne]
      rintro rfl
      exact hd hx
    rw [prove, position_build, hnone]
    rfl

end Tree

end WitnessLedger.Merkle
