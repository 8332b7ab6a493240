import WitnessLedger.Proofs.Merkle.Binding
import WitnessLedger.Proofs.Merkle.Soundness

/-!
# Trees with the same root

Trees of the same width have the same root if their leaves are the same once they are filled up, and
only then, unless two different pairs of their nodes are combined to one digest.  Filling up is
therefore all that the root forgets of its leaves: lists of one length it tells apart.

## Key results

- `allNodeBytes_eq_map_pairs`: what is hashed for a tree are the pairs of its nodes
- `eq_or_pairsCollide_of_top_eq`: levels of one size have the same top only if they are the same
- `Tree.root_eq_iff_padded`: which leaves give the same root
-/

namespace WitnessLedger.Merkle

/-- The string whose digest a pair is combined to. -/
def pairBytes (x : Digest × Digest) : List UInt8 := x.1.bytes ++ x.2.bytes

theorem nodeBytes_eq_map_pairs (level : List Digest) :
    nodeBytes level = (pairs level).map pairBytes := by
  match level with
  | [] => rfl
  | [_] => rfl
  | left :: right :: rest =>
    rw [nodeBytes, pairs, List.map_cons, nodeBytes_eq_map_pairs rest]
    rfl

/-- What is hashed for the levels above a level are the pairs of all nodes from the level on. -/
theorem allNodeBytes_eq_map_pairs {height : Nat} {level : List Digest}
    (h : level.length = 2 ^ height) :
    allNodeBytes height level = (pairs (levels height level)).map pairBytes := by
  induction height generalizing level with
  | zero =>
    obtain ⟨d, rfl⟩ := List.length_eq_one_iff.1 h
    rfl
  | succ height ih =>
    have hpairs : level.length = 2 * 2 ^ height := by rw [h, Nat.pow_succ']
    rw [allNodeBytes, levels, pairs_append hpairs, List.map_append, nodeBytes_eq_map_pairs,
      ih (length_parents_of_pow h)]

/-- A collision of strings that are two digests each is one of pairs of digests. -/
theorem pairsCollide_of_collide {xs ys : List (Digest × Digest)}
    (h : Digest.Collide (xs.map pairBytes) (ys.map pairBytes)) : PairsCollide xs ys := by
  obtain ⟨_, hmemx, _, hmemy, hne, heq⟩ := h
  obtain ⟨x, hx, rfl⟩ := List.mem_map.1 hmemx
  obtain ⟨y, hy, rfl⟩ := List.mem_map.1 hmemy
  exact ⟨x, hx, y, hy, ne_of_apply_ne pairBytes hne, heq⟩

/-- Levels of one size have the same top only if they are the same, unless pairs of the nodes above
    them collide. -/
theorem eq_or_pairsCollide_of_top_eq {height : Nat} {level level' : List Digest}
    (h : level.length = 2 ^ height) (h' : level'.length = 2 ^ height)
    (htop : top height level = top height level') :
    level = level' ∨ PairsCollide (pairs (levels height level)) (pairs (levels height level')) := by
  refine (level_eq_or_collide h h' htop).imp_right fun hcollide => ?_
  rw [allNodeBytes_eq_map_pairs h, allNodeBytes_eq_map_pairs h'] at hcollide
  exact pairsCollide_of_collide hcollide

namespace Tree

/-- The nodes and the root of a tree are the levels above its padded leaves and their top. -/
theorem build_eq_padded {leaves : List Digest} (h : leaves ≠ []) :
    (build leaves).nodes = levels (Nat.clog 2 leaves.length) (padded leaves) ∧
      (build leaves).root = top (Nat.clog 2 leaves.length) (padded leaves) := by
  constructor
  · rw [build_of_ne_nil h, heightFor_eq_clog, filledUp_eq_padded h]
  · rw [root_build h, heightFor_eq_clog, filledUp_eq_padded h]

variable {xs ys : List Digest}

/-- The same leaves once filled up give the same root. -/
theorem root_eq_of_padded_eq (hx : xs ≠ []) (hy : ys ≠ [])
    (hwidth : width xs.length = width ys.length) (h : padded xs = padded ys) :
    (build xs).root = (build ys).root := by
  have hheight : Nat.clog 2 xs.length = Nat.clog 2 ys.length :=
    Nat.pow_right_injective (Nat.le_refl 2) hwidth
  rw [(build_eq_padded hx).2, (build_eq_padded hy).2, hheight, h]

/-- Trees of one width that have the same root have the same leaves once filled up, unless pairs of
    their nodes collide. -/
theorem padded_eq_or_pairsCollide (hx : xs ≠ []) (hy : ys ≠ [])
    (hwidth : width xs.length = width ys.length) (hroot : (build xs).root = (build ys).root) :
    padded xs = padded ys ∨ PairsCollide (pairs (build xs).nodes) (pairs (build ys).nodes) := by
  have hheight : Nat.clog 2 xs.length = Nat.clog 2 ys.length :=
    Nat.pow_right_injective (Nat.le_refl 2) hwidth
  have hlength := length_padded hx
  rw [(build_eq_padded hx).2, (build_eq_padded hy).2, hheight] at hroot
  rw [(build_eq_padded hx).1, (build_eq_padded hy).1, hheight]
  rw [hheight] at hlength
  exact eq_or_pairsCollide_of_top_eq hlength (length_padded hy) hroot

/-- Leaves of one number are the same if they are the same once filled up. -/
theorem eq_of_padded_eq (hlength : xs.length = ys.length) (h : padded xs = padded ys) : xs = ys :=
  List.append_inj_left h hlength

/-- For any leaves whose trees have the same width, one of two things is the case.  The trees have
    the same root exactly if the leaves are the same once filled up with copies of the last ones.
    Or a pair of nodes of the one tree and a different pair of nodes of the other are combined to
    the same digest.  In any case the same filled-up leaves give the same root; and lists of one
    length that give it are the same, or there are such pairs. -/
theorem root_eq_iff_padded (hx : xs ≠ []) (hy : ys ≠ [])
    (hwidth : width xs.length = width ys.length) :
    (((build xs).root = (build ys).root ↔ padded xs = padded ys) ∨
        PairsCollide (pairs (build xs).nodes) (pairs (build ys).nodes)) ∧
      (padded xs = padded ys → (build xs).root = (build ys).root) ∧
      (xs.length = ys.length → (build xs).root = (build ys).root →
        xs = ys ∨ PairsCollide (pairs (build xs).nodes) (pairs (build ys).nodes)) := by
  have hback := root_eq_of_padded_eq hx hy hwidth
  have hforth := padded_eq_or_pairsCollide hx hy hwidth
  refine ⟨?_, hback, fun hlength hroot => (hforth hroot).imp_left (eq_of_padded_eq hlength)⟩
  by_cases hcollide : PairsCollide (pairs (build xs).nodes) (pairs (build ys).nodes)
  · exact .inr hcollide
  · exact .inl ⟨fun hroot => (hforth hroot).resolve_right hcollide, hback⟩

/-- Three leaves give the same root as the four that they are filled up to. -/
theorem root_eq_iff_padded_threeAndFour :
    let digest (b : UInt8) : Digest := ⟨List.replicate 32 b, List.length_replicate⟩
    let xs := [digest 1, digest 2, digest 3]
    let ys := [digest 1, digest 2, digest 3, digest 3]
    xs ≠ [] ∧ ys ≠ [] ∧ width xs.length = width ys.length ∧ xs ≠ ys ∧ padded xs = padded ys ∧
      (build xs).root = (build ys).root := by
  intro digest xs ys
  have hx : xs ≠ [] := List.cons_ne_nil _ _
  have hy : ys ≠ [] := List.cons_ne_nil _ _
  have hwidth : width xs.length = width ys.length := by decide
  have hpadded : padded xs = padded ys := by decide
  exact ⟨hx, hy, hwidth, by decide, hpadded, (root_eq_iff_padded hx hy hwidth).2.1 hpadded⟩

end Tree

end WitnessLedger.Merkle
