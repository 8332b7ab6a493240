import WitnessLedger.Proofs.Digest.Collision
import WitnessLedger.Proofs.Merkle.Levels

/-!
# What a root binds

The root of a tree fixes the leaves below it, as long as their number is known: if two trees of the
same size have the same root and different leaves, then on some level two different pairs of nodes
have been combined to the same digest.  Without the number it does not, since a tree over leaves
that are filled up is the tree over those leaves and the copies.

## Key results

- `parents_eq_map`: a level of parents is made of the digests of the pairs below
- `level_eq_or_collide`: the top of a level binds the level
- `Tree.leaves_eq_or_collide`: the root of a tree binds its leaves
-/

namespace WitnessLedger.Merkle

/-- The strings whose digests are the parents of a level: its nodes, two by two. -/
def nodeBytes : List Digest → List (List UInt8)
  | left :: right :: rest => (left.bytes ++ right.bytes) :: nodeBytes rest
  | _ => []

/-- The strings that are hashed for all levels above a level. -/
def allNodeBytes : Nat → List Digest → List (List UInt8)
  | 0, _ => []
  | height + 1, level => nodeBytes level ++ allNodeBytes height (parents level)

/-- The strings that are hashed for the tree over some leaves. -/
def Tree.hashed (leaves : List Digest) : List (List UInt8) :=
  allNodeBytes (heightFor leaves.length) (filledUp leaves)

theorem parents_eq_map (level : List Digest) :
    parents level = (nodeBytes level).map Digest.sha256 := by
  match level with
  | [] => rfl
  | [_] => rfl
  | left :: right :: rest =>
    rw [parents, nodeBytes, List.map_cons, parents_eq_map rest]
    rfl

/-- The pairs of a level tell its nodes, each of which has the same number of bytes. -/
theorem nodeBytes_inj {n : Nat} {level level' : List Digest} (hlength : level.length = 2 * n)
    (hlength' : level'.length = 2 * n) (h : nodeBytes level = nodeBytes level') :
    level = level' := by
  induction n generalizing level level' with
  | zero => rw [List.length_eq_zero_iff.1 hlength, List.length_eq_zero_iff.1 hlength']
  | succ n ih =>
    match level, level', hlength, hlength' with
    | left :: right :: rest, left' :: right' :: rest', hlength, hlength' =>
      rw [nodeBytes, nodeBytes, List.cons.injEq] at h
      obtain ⟨hleft, hright⟩ := List.append_inj h.1 (left.length_eq.trans left'.length_eq.symm)
      rw [List.length_cons, List.length_cons] at hlength hlength'
      have hrest : rest = rest' := ih (by omega) (by omega) h.2
      rw [Digest.eq_of_bytes_eq hleft, Digest.eq_of_bytes_eq hright, hrest]

/-- The top of a level binds the level. -/
theorem level_eq_or_collide {height : Nat} {level level' : List Digest}
    (hlength : level.length = 2 ^ height) (hlength' : level'.length = 2 ^ height)
    (htop : top height level = top height level') :
    level = level' ∨ Digest.Collide (allNodeBytes height level) (allNodeBytes height level') := by
  induction height generalizing level level' with
  | zero =>
    obtain ⟨d, rfl⟩ := List.length_eq_one_iff.1 hlength
    obtain ⟨d', rfl⟩ := List.length_eq_one_iff.1 hlength'
    have hd : d = d' := htop
    exact .inl (by rw [hd])
  | succ height ih =>
    -- from the top down: first the parents, then the pairs that they are the digests of
    rcases ih (length_parents_of_pow hlength) (length_parents_of_pow hlength') htop with
      hparents | hcollide
    · rw [parents_eq_map, parents_eq_map] at hparents
      rcases Digest.map_eq_or_collide hparents with hbytes | hcollide
      · rw [Nat.pow_succ, Nat.mul_comm] at hlength hlength'
        exact .inl (nodeBytes_inj hlength hlength' hbytes)
      · exact .inr (hcollide.mono (List.subset_append_left ..) (List.subset_append_left ..))
    · exact .inr (hcollide.mono (List.subset_append_right ..) (List.subset_append_right ..))

/-- Leaves that have been filled up are the first of those that they became. -/
theorem filledUp_inj {leaves leaves' : List Digest} (hlength : leaves.length = leaves'.length)
    (h : filledUp leaves = filledUp leaves') : leaves = leaves' := by
  by_cases hnil : leaves = []
  · subst hnil
    exact (List.length_eq_zero_iff.1 hlength.symm).symm
  · have hnil' : leaves' ≠ [] := by
      rintro rfl
      exact hnil (List.length_eq_zero_iff.1 hlength)
    obtain ⟨filling, heq, -⟩ := filledUp_eq hnil
    obtain ⟨filling', heq', -⟩ := filledUp_eq hnil'
    rw [heq, heq'] at h
    exact List.append_inj_left h hlength

/-- The root of a tree binds its leaves, if their number is known. -/
theorem Tree.leaves_eq_or_collide {leaves leaves' : List Digest}
    (hlength : leaves.length = leaves'.length) (hne : leaves ≠ [])
    (hroot : (build leaves).root = (build leaves').root) :
    leaves = leaves' ∨ Digest.Collide (hashed leaves) (hashed leaves') := by
  have hne' : leaves' ≠ [] := by
    rintro rfl
    exact hne (List.length_eq_zero_iff.1 hlength)
  have hfilled := length_filledUp hne
  have hfilled' := length_filledUp hne'
  rw [root_build hne, root_build hne', ← hlength] at hroot
  rw [← hlength] at hfilled'
  rw [hashed, hashed, ← hlength]
  exact (level_eq_or_collide hfilled hfilled' hroot).imp_left (filledUp_inj hlength)

end WitnessLedger.Merkle
