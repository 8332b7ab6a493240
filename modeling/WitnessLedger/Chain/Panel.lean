import WitnessLedger.Error

/-! # The panel of witnesses

The nodes that may vote on a chain, and the share of them that has to accept an entry.  There
is at least one node, none twice, and the share is above zero and at most one.  Both a number
of accepting witnesses, which the kind of entry gives, and the share are needed. -/

namespace WitnessLedger

/-- The first text of a list that stands in it, or in `seen`, before. -/
def firstRepeated? (seen : List String) : List String → Option String
  | [] => none
  | x :: xs => if x ∈ seen then some x else firstRepeated? (x :: seen) xs

theorem firstRepeated?_eq_none_iff {seen xs : List String} :
    firstRepeated? seen xs = none ↔ xs.Nodup ∧ ∀ x ∈ xs, x ∉ seen := by
  induction xs generalizing seen with
  | nil => simp [firstRepeated?]
  | cons x xs ih =>
    rw [firstRepeated?]
    by_cases h : x ∈ seen
    · simp [h]
    · simp only [h, if_false, ih, List.nodup_cons, List.mem_cons, not_or, forall_eq_or_imp]
      grind

/-- Whether a share of accepting nodes can be asked for. -/
def thresholdInRange (threshold : Double) : Bool :=
  (Double.ratio 0 1).lt threshold && threshold.le (Double.ratio 1 1)

/-- The witnesses of a chain and the share of them that has to accept. -/
structure Panel where
  nodes : List String
  threshold : Double
  nodes_ne_nil : nodes ≠ []
  nodup_nodes : nodes.Nodup
  inRange : thresholdInRange threshold = true

namespace Panel

/-- The panel of given nodes.  A node that occurs twice is reported before a threshold out of
    range. -/
def of (nodes : List String) (threshold : Double) : Except ConfigError Panel :=
  if hn : nodes = [] then .error .noConsensusNodes
  else
    match hd : firstRepeated? [] nodes with
    | some node => .error (.duplicateNode node)
    | none =>
      if ht : thresholdInRange threshold = true then
        .ok ⟨nodes, threshold, hn, (firstRepeated?_eq_none_iff.1 hd).1, ht⟩
      else .error (.invalidThreshold threshold)

/-- The number of witnesses. -/
def size (p : Panel) : Nat := p.nodes.length

/-- Whether a witness belongs to the panel. -/
def contains (p : Panel) (witness : String) : Bool := witness ∈ p.nodes

/-- The share of the panel that a number of witnesses makes up. -/
def share (p : Panel) (accepts : Nat) : Double := Double.ratio accepts p.size

/-- Whether a number of accepting witnesses is enough for a required number and for the
    share. -/
def isQuorum (p : Panel) (required accepts : Nat) : Bool :=
  required ≤ accepts && p.threshold.le (p.share accepts)

end Panel

end WitnessLedger
