import WitnessLedger.Proofs.Merkle.Levels
import Mathlib.Data.Nat.Digits.Defs
import Mathlib.Data.Nat.Log

/-!
# The shape of a tree

The leaves of a tree are filled up with copies of the last one to the least power of two that holds
them.  A path to the root takes one step on each level, and the sides of its siblings are the binary
digits of the place where it starts: a sibling on the left says that the place is odd.

## Key results

- `heightFor_eq_clog`: the height of a tree is the binary logarithm of its leaves, rounded up
- `filledUp_eq_padded`: the leaves are filled up with copies of the last one
- `length_levels`: a tree of a given width has twice as many nodes, less one
- `parents_levels`: the nodes above the leaves are the parents of all nodes
- `Tree.spells_of_pathFrom`: the sides of a path spell the place where it starts
-/

namespace WitnessLedger.Merkle

/-- The least power of two that is not below a number. -/
def width (n : Nat) : Nat := 2 ^ Nat.clog 2 n

/-- Some leaves, filled up to the width of their tree with copies of the last one.  Where there are
    none, the root of the empty tree stands for them. -/
def padded (leaves : List Digest) : List Digest :=
  leaves ++ List.replicate (width leaves.length - leaves.length) (leaves.getLastD emptyRoot)

/-- The binary digit that a side stands for: what has its sibling on the left stands at an odd
    place. -/
def Side.digit : Side → Nat
  | .left => 1
  | .right => 0

/-- The place that the sides of a path spell, the lowest binary digit first. -/
def place (path : List Step) : Nat := Nat.ofDigits 2 (path.map (·.side.digit))

@[simp] theorem place_cons (s : Step) (path : List Step) :
    place (s :: path) = s.side.digit + 2 * place path := by
  unfold place
  rw [List.map_cons, Nat.ofDigits_cons]

/-- The neighbours of a list, two by two. -/
def pairs : List Digest → List (Digest × Digest)
  | left :: right :: rest => (left, right) :: pairs rest
  | _ => []

/-- The digest that a pair is combined to. -/
def combinePair (x : Digest × Digest) : Digest := Digest.combine x.1 x.2

/-! ## Widths -/

theorem log2_width (n : Nat) : (width n).log2 = Nat.clog 2 n := Nat.log2_two_pow

/-- The height of a tree is the binary logarithm of the number of its leaves, rounded up. -/
theorem heightFor_eq_clog (n : Nat) : heightFor n = Nat.clog 2 n := by
  unfold heightFor
  by_cases hn : n ≤ 1
  · rw [if_pos hn, Nat.clog_of_right_le_one hn]
  · rw [if_neg hn]
    -- the logarithm of `n - 1`, rounded down, is one less than that of `n`, rounded up
    have hlower : 2 ^ (n - 1).log2 < n := by
      have h := Nat.log2_self_le (n := n - 1) (by omega)
      omega
    have hupper : n ≤ 2 ^ ((n - 1).log2 + 1) := by
      have h := Nat.lt_log2_self (n := n - 1)
      omega
    apply Nat.le_antisymm
    · exact (Nat.lt_clog_iff_pow_lt Nat.one_lt_two).2 hlower
    · exact Nat.clog_le_of_le_pow hupper

theorem widthFor_eq_width (n : Nat) : widthFor n = width n := by
  unfold widthFor width
  rw [heightFor_eq_clog, Nat.pow_eq]

/-- The leaves are filled up with copies of the last one. -/
theorem filledUp_eq_padded {leaves : List Digest} (h : leaves ≠ []) :
    filledUp leaves = padded leaves := by
  unfold filledUp padded
  rw [List.getLast?_eq_some_getLast h, List.getLastD_eq_getLast?, List.getLast?_eq_some_getLast h,
    widthFor_eq_width]
  rfl

/-- Filling up adds no leaf that was not there. -/
theorem mem_of_mem_padded {leaves : List Digest} (h : leaves ≠ []) {d : Digest}
    (hd : d ∈ padded leaves) : d ∈ leaves := by
  rcases List.mem_append.1 hd with hd | hd
  · exact hd
  · rw [List.eq_of_mem_replicate hd, List.getLastD_eq_getLast?,
      List.getLast?_eq_some_getLast h, Option.getD_some]
    exact List.getLast_mem h

theorem length_padded {leaves : List Digest} (h : leaves ≠ []) :
    (padded leaves).length = 2 ^ Nat.clog 2 leaves.length := by
  rw [← filledUp_eq_padded h, length_filledUp h, heightFor_eq_clog]

/-! ## Levels -/

theorem parents_eq_map_pairs (level : List Digest) :
    parents level = (pairs level).map combinePair := by
  match level with
  | [] => rfl
  | [_] => rfl
  | left :: right :: rest =>
    rw [parents, pairs, List.map_cons, parents_eq_map_pairs rest]
    rfl

/-- A list that ends with a full pair has its pairs in front of those of what follows. -/
theorem pairs_append {n : Nat} {xs : List Digest} (h : xs.length = 2 * n) (ys : List Digest) :
    pairs (xs ++ ys) = pairs xs ++ pairs ys := by
  induction n generalizing xs with
  | zero =>
    rw [List.length_eq_zero_iff.1 h]
    rfl
  | succ n ih =>
    match xs, h with
    | left :: right :: rest, h =>
      have hrest : rest.length = 2 * n := by
        simp only [List.length_cons] at h
        omega
      simp only [List.cons_append, pairs, ih hrest]

theorem parents_append {n : Nat} {xs : List Digest} (h : xs.length = 2 * n) (ys : List Digest) :
    parents (xs ++ ys) = parents xs ++ parents ys := by
  simp only [parents_eq_map_pairs, pairs_append h, List.map_append]

/-- A pair of neighbours stands at twice its place in the list. -/
theorem getElem?_of_pairs {level : List Digest} {i : Nat} {x : Digest × Digest}
    (h : (pairs level)[i]? = some x) :
    level[2 * i]? = some x.1 ∧ level[2 * i + 1]? = some x.2 := by
  induction i generalizing level with
  | zero =>
    match level, h with
    | left :: right :: rest, h =>
      cases h
      exact ⟨rfl, rfl⟩
  | succ i ih =>
    match level, h with
    | left :: right :: rest, h =>
      have hrest : (pairs rest)[i]? = some x := by
        rwa [pairs, List.getElem?_cons_succ] at h
      exact ih hrest

/-- A tree of a given width has twice as many nodes, less the one that has no sibling. -/
theorem length_levels {height : Nat} {level : List Digest} (h : level.length = 2 ^ height) :
    (levels height level).length + 1 = 2 * 2 ^ height := by
  induction height generalizing level with
  | zero =>
    unfold levels
    omega
  | succ height ih =>
    have habove := ih (length_parents_of_pow h)
    rw [levels, List.length_append, h, Nat.pow_succ]
    omega

/-- The nodes above a level are the parents of all nodes from the level on, in the same order. -/
theorem parents_levels {height : Nat} {level : List Digest} (h : level.length = 2 ^ height) :
    parents (levels height level) = (levels height level).drop level.length := by
  induction height generalizing level with
  | zero =>
    obtain ⟨d, rfl⟩ := List.length_eq_one_iff.1 h
    rfl
  | succ height ih =>
    have hpairs : level.length = 2 * 2 ^ height := by rw [h, Nat.pow_succ']
    have habove := ih (length_parents_of_pow h)
    obtain ⟨above, hlevels⟩ := levels_eq height (parents level)
    rw [hlevels, List.drop_left] at habove
    rw [levels, List.drop_left, hlevels, parents_append hpairs, habove]

namespace Tree

/-- A tree begins with its leaves. -/
theorem take_nodes_build (leaves : List Digest) :
    (build leaves).nodes.take leaves.length = leaves := by
  by_cases h : leaves = []
  · rw [h, List.length_nil, List.take_zero]
  · obtain ⟨filling, hfilled, -⟩ := filledUp_eq h
    obtain ⟨above, hlevels⟩ := levels_eq (heightFor leaves.length) (filledUp leaves)
    rw [build_of_ne_nil h]
    show (levels (heightFor leaves.length) (filledUp leaves)).take leaves.length = leaves
    rw [hlevels, hfilled, List.append_assoc, List.take_left]

@[simp] theorem leafCount_build (leaves : List Digest) :
    (build leaves).leafCount = leaves.length := by
  by_cases h : leaves = []
  · rw [h]
    rfl
  · rw [build_of_ne_nil h]

/-- In whatever tree a path is found, it takes one step on each level, and its sides spell the place
    where it starts. -/
theorem spells_of_pathFrom {t : Tree} {height start i : Nat} {path : List Step}
    (h : t.pathFrom height start i = .ok path) :
    path.length = height ∧ place path = i % 2 ^ height := by
  induction height generalizing start i path with
  | zero =>
    unfold pathFrom at h
    cases h
    exact ⟨rfl, (Nat.mod_one i).symm⟩
  | succ height ih =>
    unfold pathFrom at h
    cases hnode : t.node (start + if i % 2 = 0 then i + 1 else i - 1) with
    | error miss =>
      simp only [hnode, Bind.bind, Except.bind] at h
      exact nomatch h
    | ok sibling =>
      cases hrest : t.pathFrom height (start + Nat.pow 2 (height + 1)) (i / 2) with
      | error miss =>
        simp only [hnode, hrest, Bind.bind, Except.bind] at h
        exact nomatch h
      | ok rest =>
        simp only [hnode, hrest, Bind.bind, Except.bind, Pure.pure, Except.pure,
          Except.ok.injEq] at h
        subst h
        obtain ⟨hlength, hplace⟩ := ih hrest
        have hdigit : Side.digit (if i % 2 = 0 then .right else .left) = i % 2 := by
          by_cases heven : i % 2 = 0
          · rw [if_pos heven, heven]
            rfl
          · rw [if_neg heven]
            show 1 = i % 2
            omega
        refine ⟨by rw [List.length_cons, hlength], ?_⟩
        calc place (⟨sibling, if i % 2 = 0 then .right else .left⟩ :: rest)
            = i % 2 + 2 * place rest := by rw [place_cons, hdigit]
          _ = i % 2 + 2 * (i / 2 % 2 ^ height) := by rw [hplace]
          _ = i % 2 ^ (height + 1) := by rw [Nat.pow_succ', Nat.mod_mul]

end Tree

end WitnessLedger.Merkle
