import WitnessLedger.Entry.Basic

/-! # Scores

Five factors say how much an entry matters: what it costs, whether its kind and subtype are
new, how anomalous it is, whether it refers to something in the scope, and whether its kind
has consequences.  Their total decides on which level an entry is kept. -/

namespace WitnessLedger

/-- The five factors of an entry, words of 32 bits. -/
structure Score where
  significant : UInt32
  novel : UInt32
  anomalous : UInt32
  relevant : UInt32
  consequential : UInt32
  deriving DecidableEq

namespace Score

/-- The sum of the factors, a word again.  The factors that scoring gives add up to ten at
    most; only factors from outside can exceed the word, and their sum then starts from zero
    again. -/
def total (s : Score) : UInt32 :=
  s.significant + s.novel + s.anomalous + s.relevant + s.consequential

/-- The total from which an entry is kept. -/
def retainTotal : UInt32 := 3

/-- The total from which an entry may be taken to the root. -/
def promoteTotal : UInt32 := 5

/-- Whether an entry is kept. -/
def shouldRetain (s : Score) : Bool := retainTotal ≤ s.total

/-- Whether an entry may be taken to the root. -/
def shouldPromote (s : Score) : Bool := promoteTotal ≤ s.total

/-- The level that a score leads to. -/
def level (s : Score) : Level :=
  if s.shouldPromote then .stem else if s.shouldRetain then .leaf else .compost

end Score

/-- The kinds and subtypes that have been seen. -/
structure Novelty where
  seen : List (EntryKind × Option String)

namespace Novelty

/-- Nothing has been seen. -/
def empty : Novelty := ⟨[]⟩

/-- Whether a kind with a subtype has been seen. -/
def hasSeen (n : Novelty) (kind : EntryKind) (subtype : Option String) : Bool :=
  n.seen.contains (kind, subtype)

/-- The number of pairs that have been seen. -/
def count (n : Novelty) : Nat := n.seen.length

/-- What has been seen after a kind with a subtype. -/
def insert (n : Novelty) (kind : EntryKind) (subtype : Option String) : Novelty :=
  if n.hasSeen kind subtype then n else ⟨n.seen ++ [(kind, subtype)]⟩

/-- Takes note of a kind with a subtype, and tells whether it is new. -/
def observe (n : Novelty) (kind : EntryKind) (subtype : Option String) : Bool × Novelty :=
  (!n.hasSeen kind subtype, n.insert kind subtype)

end Novelty

namespace Score

/-- The anomaly score above which an entry is anomalous. -/
def anomalyThreshold : Double := Double.ratio 7 10

/-- The factors of an entry of a kind, which a cost above `significance` makes significant. -/
def of (significance : Nat) (scope : SortedSet) (novelty : Novelty) (kind : EntryKind)
    (content : Content) (cost : Nat) : Score :=
  { significant := if significance < cost then 2 else 0
    novel := if novelty.hasSeen kind content.subtype then 0 else 3
    anomalous := if content.anomalyScore.any anomalyThreshold.lt then 2 else 0
    relevant := if content.references.any scope.contains then 1 else 0
    consequential := if kind.isConsequential then 2 else 0 }

end Score

end WitnessLedger
