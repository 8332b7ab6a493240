import WitnessLedger.Proofs.Merkle.Completeness

/-!
# Queries within the nodes

A tree that comes from outside has any nodes and any number of leaves, and nothing says that the
nodes of all levels are there.  A query reads one sibling on each level.  The last of the places
that it can need is that of the right child of the root, which the proof of the first leaf does
need, so that the number of leaves alone says how many nodes have to be there.

## Key results

- `Tree.proveIndex_eq_noNode_iff`: a proof is missed for the first place read that is not there
- `lt_of_mem_siblingPlaces`, `last_mem_siblingPlaces`: how far the places of siblings go
- `Tree.confined_iff`: when no query asks for a node that is not there
- `Tree.confined_queries`: the bound for any tree, and the trees over some leaves
-/

namespace WitnessLedger.Merkle

/-- The places of the siblings on the way up from the place `i` of a level that begins at `start`
    and has `height` levels above it. -/
def siblingPlaces : Nat → Nat → Nat → List Nat
  | 0, _, _ => []
  | height + 1, start, i =>
    (start + if i % 2 = 0 then i + 1 else i - 1) ::
      siblingPlaces height (start + 2 ^ (height + 1)) (i / 2)

/-- Every sibling stands below the root and its right child. -/
theorem lt_of_mem_siblingPlaces {height start i n : Nat} (hi : i < 2 ^ height)
    (h : n ∈ siblingPlaces height start i) : n + 2 < start + 2 * 2 ^ height := by
  induction height generalizing start i with
  | zero => cases h
  | succ height ih =>
    -- The next level begins where this one ends and is half as wide, so that the bound stays.
    have hpos : 0 < 2 ^ height := Nat.two_pow_pos height
    rw [Nat.pow_succ'] at hi ⊢
    rw [siblingPlaces, Nat.pow_succ'] at h
    rcases List.mem_cons.1 h with rfl | hrest
    · split <;> omega
    · have habove := ih (by omega) hrest
      omega

/-- The way up from the first leaf ends with the right child of the root. -/
theorem last_mem_siblingPlaces (height start : Nat) :
    start + 2 * 2 ^ (height + 1) - 3 ∈ siblingPlaces (height + 1) start 0 := by
  induction height generalizing start with
  | zero => exact List.mem_cons_self ..
  | succ height ih =>
    have hrest := ih (start + 2 ^ (height + 1 + 1))
    rw [siblingPlaces]
    refine List.mem_cons_of_mem _ ?_
    convert hrest using 2
    rw [Nat.pow_succ' (n := height + 1)]
    omega

theorem le_width (n : Nat) : n ≤ width n := Nat.le_pow_clog Nat.one_lt_two n

theorem width_le_two_pow {n k : Nat} (h : n ≤ 2 ^ k) : width n ≤ 2 ^ k :=
  Nat.pow_le_pow_right (by decide) (Nat.clog_le_of_le_pow h)

namespace Tree

/-- Whether a tree does not hold the node at a place. -/
def lacks (t : Tree) (place : Nat) : Bool := t.nodes.length ≤ place

/-- The places that the proof of a leaf is read from, in the order of reading. -/
def placesRead (t : Tree) (i : Nat) : List Nat :=
  if t.leafCount ≤ i then [] else siblingPlaces (heightFor t.leafCount) 0 i ++ [i]

/-- No query on a tree asks for a node that the tree does not hold. -/
structure Confined (t : Tree) : Prop where
  position : ∀ d n, t.position d ≠ .error (.noNode n)
  prove : ∀ d n, t.prove d ≠ .error (.noNode n)
  proveIndex : ∀ i n, t.proveIndex i ≠ .error (.noNode n)

variable {t : Tree}

/-! ## What is missed -/

theorem node_of_lacks {n : Nat} (h : t.lacks n = true) : t.node n = .error (.noNode n) := by
  have hnone : t.nodes[n]? = none := List.getElem?_eq_none (of_decide_eq_true h)
  rw [node, hnone]

theorem exists_node {n : Nat} (h : t.lacks n = false) : ∃ d, t.node n = .ok d := by
  have hlt : n < t.nodes.length := Nat.not_le.1 (of_decide_eq_false h)
  exact ⟨t.nodes[n], node_eq_ok (List.getElem?_eq_getElem hlt)⟩

/-- A path is missed for the first sibling that is not there. -/
theorem pathFrom_of_lacks {height start i n : Nat}
    (h : (siblingPlaces height start i).find? t.lacks = some n) :
    t.pathFrom height start i = .error (.noNode n) := by
  induction height generalizing start i with
  | zero => cases h
  | succ height ih =>
    rw [siblingPlaces] at h
    rw [pathFrom]
    cases hlacks : t.lacks (start + if i % 2 = 0 then i + 1 else i - 1) with
    | true =>
      rw [List.find?_cons_of_pos hlacks] at h
      cases h
      rw [node_of_lacks hlacks]
      rfl
    | false =>
      rw [List.find?_cons_of_neg (by simp [hlacks])] at h
      obtain ⟨sibling, hsibling⟩ := exists_node hlacks
      rw [hsibling, Nat.pow_eq]
      show (t.pathFrom height _ _ >>= _) = _
      rw [ih h]
      rfl

/-- A path is found where all siblings are there. -/
theorem exists_pathFrom {height start i : Nat}
    (h : ∀ n ∈ siblingPlaces height start i, t.lacks n = false) :
    ∃ path, t.pathFrom height start i = .ok path := by
  induction height generalizing start i with
  | zero => exact ⟨[], rfl⟩
  | succ height ih =>
    rw [siblingPlaces] at h
    obtain ⟨sibling, hsibling⟩ := exists_node (h _ (List.mem_cons_self ..))
    obtain ⟨rest, hrest⟩ := ih fun n hn => h n (List.mem_cons_of_mem _ hn)
    rw [pathFrom, hsibling, Nat.pow_eq]
    show ∃ path, (t.pathFrom height _ _ >>= _) = .ok path
    rw [hrest]
    exact ⟨_, rfl⟩

theorem proveIndex_of_lt {i : Nat} (hi : i < t.leafCount) :
    t.proveIndex i = t.pathFrom (heightFor t.leafCount) 0 i >>= fun path =>
      t.node i >>= fun d => .ok ⟨i, d, path, t.root⟩ := by
  rw [proveIndex, if_neg (Nat.not_le.2 hi)]
  rfl

theorem placesRead_of_lt {i : Nat} (hi : i < t.leafCount) :
    t.placesRead i = siblingPlaces (heightFor t.leafCount) 0 i ++ [i] :=
  if_neg (Nat.not_le.2 hi)

/-- A proof is missed for the first place read that is not there. -/
theorem proveIndex_eq_noNode_iff {i n : Nat} :
    t.proveIndex i = .error (.noNode n) ↔ (t.placesRead i).find? t.lacks = some n := by
  by_cases hi : i < t.leafCount
  · rw [proveIndex_of_lt hi, placesRead_of_lt hi, List.find?_append]
    cases hfind : (siblingPlaces (heightFor t.leafCount) 0 i).find? t.lacks with
    | some m =>
      rw [pathFrom_of_lacks hfind, Option.some_or]
      constructor <;> (rintro ⟨⟩; rfl)
    | none =>
      have hsiblings : ∀ m ∈ siblingPlaces (heightFor t.leafCount) 0 i, t.lacks m = false :=
        fun m hm => Bool.eq_false_iff.2 (List.find?_eq_none.1 hfind m hm)
      obtain ⟨path, hpath⟩ := exists_pathFrom hsiblings
      rw [hpath, Option.none_or]
      -- All siblings are there, and the leaf itself is read last.
      show (t.node i >>= _) = _ ↔ _
      cases hlacks : t.lacks i with
      | true =>
        rw [node_of_lacks hlacks, List.find?_cons_of_pos hlacks]
        constructor <;> (rintro ⟨⟩; rfl)
      | false =>
        obtain ⟨d, hd⟩ := exists_node hlacks
        rw [hd, List.find?_cons_of_neg (by simp [hlacks])]
        constructor <;> rintro ⟨⟩
  · rw [proveIndex, placesRead, if_pos (Nat.not_lt.1 hi), if_pos (Nat.not_lt.1 hi)]
    constructor <;> rintro ⟨⟩

/-- The look-up of a digest goes through all leaves, and misses the first that is not there. -/
theorem position_eq_noNode_iff {d : Digest} {n : Nat} :
    t.position d = .error (.noNode n) ↔ t.nodes.length < t.leafCount ∧ n = t.nodes.length := by
  unfold position
  by_cases hshort : t.nodes.length < t.leafCount
  · rw [if_pos hshort]
    constructor
    · rintro ⟨⟩
      exact ⟨hshort, rfl⟩
    · rintro ⟨-, rfl⟩
      rfl
  · rw [if_neg hshort]
    constructor
    · split <;> rintro ⟨⟩
    · rintro ⟨hlt, -⟩
      exact absurd hlt hshort

/-- What a proof by digest misses is missed by the look-up or by the proof by place. -/
theorem exists_of_prove_eq_noNode {d : Digest} {n : Nat} (h : t.prove d = .error (.noNode n)) :
    t.position d = .error (.noNode n) ∨ ∃ i, t.proveIndex i = .error (.noNode n) := by
  unfold prove at h
  cases hposition : t.position d with
  | error miss =>
    rw [hposition] at h
    cases h
    exact Or.inl rfl
  | ok i =>
    rw [hposition] at h
    exact Or.inr ⟨i, h⟩

/-! ## How many nodes are needed -/

/-- The places read lie below the root of a full tree and its right child, and the leaf itself is
    there in any tree. -/
theorem lt_of_mem_placesRead {i n : Nat} (h : n ∈ t.placesRead i) :
    n < max 1 (2 * width t.leafCount - 2) := by
  by_cases hi : i < t.leafCount
  · have hle := le_width t.leafCount
    rw [placesRead_of_lt hi, List.mem_append, List.mem_singleton] at h
    rcases h with hsibling | rfl
    · rw [heightFor_eq_clog] at hsibling
      have hlt : n + 2 < 0 + 2 * width t.leafCount :=
        lt_of_mem_siblingPlaces (Nat.lt_of_lt_of_le hi hle) hsibling
      omega
    · omega
  · rw [placesRead, if_pos (Nat.not_lt.1 hi)] at h
    cases h

/-- The proof of the first leaf needs all that any query needs. -/
theorem le_of_placesRead_zero {size : Nat} (hcount : t.leafCount ≠ 0)
    (h : ∀ n ∈ t.placesRead 0, n < size) : max 1 (2 * width t.leafCount - 2) ≤ size := by
  rw [placesRead_of_lt (Nat.pos_of_ne_zero hcount)] at h
  have hleaf := h 0 (List.mem_append_right _ (List.mem_singleton_self 0))
  rw [width, ← heightFor_eq_clog]
  cases hheight : heightFor t.leafCount with
  | zero => omega
  | succ height =>
    rw [hheight] at h
    have hlast := h _ (List.mem_append_left _ (last_mem_siblingPlaces height 0))
    omega

/-- No query asks for a node that is not there exactly if there are no leaves, or as many nodes as
    a full tree over that many leaves has below its root. -/
theorem confined_iff :
    t.Confined ↔ t.leafCount = 0 ∨ max 1 (2 * width t.leafCount - 2) ≤ t.nodes.length := by
  have hinside (n : Nat) : t.lacks n = false ↔ n < t.nodes.length := by simp [lacks]
  constructor
  · intro h
    refine or_iff_not_imp_left.2 fun hcount => le_of_placesRead_zero hcount fun n hn => ?_
    rw [← hinside, Bool.eq_false_iff]
    intro hlacks
    -- The proof of the first leaf would miss this place, or one that it reads before.
    obtain ⟨m, hm⟩ := Option.isSome_iff_exists.1 (List.find?_isSome.2 ⟨n, hn, hlacks⟩)
    exact h.proveIndex 0 m (proveIndex_eq_noNode_iff.2 hm)
  · intro h
    have hposition : ∀ d n, t.position d ≠ .error (.noNode n) := by
      intro d n hmiss
      have hshort := (position_eq_noNode_iff.1 hmiss).1
      have hle := le_width t.leafCount
      omega
    have hproveIndex : ∀ i n, t.proveIndex i ≠ .error (.noNode n) := by
      intro i n hmiss
      have hfind := proveIndex_eq_noNode_iff.1 hmiss
      rcases h with hzero | henough
      · rw [placesRead, if_pos (hzero ▸ Nat.zero_le i)] at hfind
        cases hfind
      · have hread := lt_of_mem_placesRead (List.mem_of_find?_eq_some hfind)
        have hthere := (hinside n).2 (Nat.lt_of_lt_of_le hread henough)
        rw [List.find?_some hfind] at hthere
        cases hthere
    refine ⟨hposition, ?_, hproveIndex⟩
    intro d n hmiss
    rcases exists_of_prove_eq_noNode hmiss with hmiss | ⟨i, hmiss⟩
    · exact hposition d n hmiss
    · exact hproveIndex i n hmiss

/-- Up to `2 ^ 63` leaves no place leaves the range of numbers of 64 bits. -/
theorem lt_word_of_mem_placesRead {i n : Nat} (hcount : t.leafCount ≤ 2 ^ 63)
    (h : n ∈ t.placesRead i) : n < 2 ^ 64 := by
  have hread := lt_of_mem_placesRead h
  have hwidth := width_le_two_pow hcount
  omega

/-- The root is the last node, or the root of the empty tree where there are no nodes. -/
theorem root_eq (t : Tree) :
    t.nodes = [] ∧ t.root = emptyRoot ∨ ∃ h : t.nodes ≠ [], t.root = t.nodes.getLast h := by
  unfold root
  by_cases h : t.nodes = []
  · exact Or.inl ⟨h, by rw [h]; rfl⟩
  · exact Or.inr ⟨h, by rw [List.getLast?_eq_some_getLast h, Option.getD_some]⟩

/-- A tree over some leaves holds all that its queries need. -/
theorem confined_build (leaves : List Digest) : (build leaves).Confined := by
  have hpos : 0 < width leaves.length := Nat.two_pow_pos _
  rw [confined_iff, leafCount_build, length_nodes_build]
  omega

/-- Whatever nodes and number of leaves a tree comes with, its queries ask only for nodes that are
    there exactly if there are no leaves or at least as many nodes as a full tree over that many
    leaves has below its root.  A proof misses the first of the places it reads that is not there,
    and for up to `2 ^ 63` leaves these are numbers of 64 bits.  The root needs nothing, and the
    tree over some leaves has all the nodes that are needed. -/
theorem confined_queries :
    (∀ t : Tree,
      (t.Confined ↔ t.leafCount = 0 ∨ max 1 (2 * width t.leafCount - 2) ≤ t.nodes.length) ∧
        (∀ i n, t.proveIndex i = .error (.noNode n) ↔ (t.placesRead i).find? t.lacks = some n) ∧
        (t.leafCount ≤ 2 ^ 63 → ∀ i, ∀ n ∈ t.placesRead i, n < 2 ^ 64) ∧
        (t.nodes = [] ∧ t.root = emptyRoot ∨
          ∃ h : t.nodes ≠ [], t.root = t.nodes.getLast h)) ∧
      ∀ leaves, (build leaves).Confined := by
  refine ⟨fun t => ⟨confined_iff, ?_, ?_, t.root_eq⟩, confined_build⟩
  · exact fun i n => proveIndex_eq_noNode_iff
  · exact fun hcount i n => lt_word_of_mem_placesRead hcount

/-- Five leaves need fourteen nodes: with one less the proof of the first leaf asks for the place
    thirteen, which is not there. -/
theorem confined_queries_fiveLeaves :
    Confined ⟨List.replicate 14 default, 5⟩ ∧ ¬ Confined ⟨List.replicate 13 default, 5⟩ ∧
      proveIndex ⟨List.replicate 13 default, 5⟩ 0 = .error (.noNode 13) ∧
      ∀ n ∈ placesRead ⟨List.replicate 13 default, 5⟩ 0, n < 2 ^ 64 := by
  have hwidth : width 5 = 8 := by
    rw [← widthFor_eq_width]
    decide
  have hlong := (confined_queries.1 ⟨List.replicate 14 default, 5⟩).1
  obtain ⟨hshort, hmissed, hword, -⟩ := confined_queries.1 ⟨List.replicate 13 default, 5⟩
  rw [hwidth, List.length_replicate] at hlong hshort
  refine ⟨hlong.2 (by decide), fun h => absurd (hshort.1 h) (by decide), ?_, ?_⟩
  · exact (hmissed 0 13).2 (by decide)
  · exact hword (by decide) 0

end Tree

end WitnessLedger.Merkle
