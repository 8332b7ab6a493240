import WitnessLedger.Tiers.Score
import WitnessLedger.Chain.Proposal
import WitnessLedger.Number.Total
import WitnessLedger.Time.Clock

/-! # Tiers

Below the root an entry lives in the compost, a buffer of bounded size that forgets its oldest
entries, and if its score is high enough also on the leaf or the stem level, which forget
nothing.  An entry of the stem can be proposed to the chain; it stays on the stem.  Every step
up is logged. -/

namespace WitnessLedger

/-- A step of an entry from one level to a higher one. -/
structure Promotion where
  entryId : String
  /-- The entry that was proposed to the chain, if the step leads there. -/
  rootEntryId : Option String
  source : Level
  target : Level
  /-- The total that led to the step, if a score did. -/
  total : Option UInt32
  timestamp : Instant
  deriving DecidableEq

/-- The levels below the root. -/
structure Tiers where
  compost : List Entry
  capacity : Nat
  leaf : List Entry
  stem : List Entry
  novelty : Novelty
  scope : SortedSet
  significance : Nat
  promotions : List Promotion

namespace Tiers

/-- Empty levels.  The compost holds at least one entry. -/
def new (capacity significance : Nat) (scope : SortedSet) : Tiers :=
  { compost := [], capacity := max capacity 1, leaf := [], stem := [], novelty := .empty, scope
    significance, promotions := [] }

/-- The id of an entry that was taken in here. -/
def ingestedId (kind : EntryKind) (suffix : String) : String := "fc:" ++ kind.name ++ ":" ++ suffix

/-- The last entries of a list, at most `capacity` of them. -/
def lastOf (capacity : Nat) (entries : List Entry) : List Entry :=
  entries.drop (entries.length - capacity)

/-- An entry of the compost before it is placed.  It links to the number of entries there. -/
def draft (t : Tiers) (now : Instant) (suffix : String) (kind : EntryKind) (content : Content) :
    Entry :=
  Entry.new (ingestedId kind suffix) kind .compost content
    (Digest.ofText (Text.Numeral.text t.compost.length)) now

/-- An entry moved to a level, at the cost of that level. -/
def atLevel (e : Entry) (level : Level) : Entry := { e with level, cost := level.cost }

/-- The step by which an entry comes to the level that its score leads to. -/
def promotionTo (e : Entry) (score : Score) (now : Instant) : Promotion :=
  { entryId := e.id, rootEntryId := none, source := .compost, target := score.level
    total := some score.total, timestamp := now }

/-- Keeps an entry on the level that its score leads to, and logs the step. -/
def place (t : Tiers) (now : Instant) (e : Entry) (score : Score) : Tiers :=
  match score.level with
  | .stem =>
    { t with stem := t.stem ++ [e], promotions := t.promotions ++ [promotionTo e score now] }
  | .leaf =>
    { t with leaf := t.leaf ++ [e], promotions := t.promotions ++ [promotionTo e score now] }
  | _ => t

/-- Takes in content.  The entry is scored before it has a cost. -/
def ingest (t : Tiers) (now : Readings) (suffix : String) (kind : EntryKind)
    (content : Content) : Except LedgerError (Entry × Tiers) := do
  content.admit kind
  let score := Score.of t.significance t.scope t.novelty kind content Level.compost.cost
  let e := atLevel (t.draft now.entry suffix kind content) score.level
  let placed := t.place now.record e score
  return (e, { placed with compost := lastOf t.capacity (t.compost ++ [e])
                           novelty := t.novelty.insert kind content.subtype })

/-- Proposes an entry of the stem to a chain; there is no proposal for any other entry. -/
def promoteToRoot (t : Tiers) (c : Chain) (now : Readings) (suffix id : String) :
    Except LedgerError (Option Entry × Tiers × Chain) :=
  match t.stem.find? (·.id == id) with
  | none => .ok (none, t, c)
  | some e => do
    let (root, c) ← c.propose now.entry suffix e.kind e.content .root
    let step : Promotion :=
      { entryId := id, rootEntryId := some root.id, source := .stem, target := .root
        total := none, timestamp := now.record }
    return (some root, { t with promotions := t.promotions ++ [step] }, c)

/-- The entry with an id on the stem, the leaf level or in the compost, looked for in this
    order. -/
def find? (t : Tiers) (id : String) : Option Entry :=
  (t.stem ++ t.leaf ++ t.compost).find? (·.id == id)

/-- Forgets which kinds and subtypes have been seen. -/
def resetNovelty (t : Tiers) : Tiers := { t with novelty := .empty }

end Tiers

/-- Counts and costs of all levels. -/
structure TierStats where
  compost : Nat
  leaf : Nat
  stem : Nat
  /-- The number of sealed entries. -/
  root : Nat
  promotions : Nat
  /-- The cost of the leaf and stem levels and of the sealed entries. -/
  totalCost : Nat
  deriving DecidableEq

/-- Counts and costs of all levels over a chain. -/
def Tiers.stats (t : Tiers) (c : Chain) : TierStats :=
  { compost := t.compost.length, leaf := t.leaf.length, stem := t.stem.length
    root := Number.total (·.entries.length) c.blocks, promotions := t.promotions.length
    totalCost := Number.total (·.cost) t.leaf + Number.total (·.cost) t.stem
      + Number.total (·.totalCost) c.blocks }

end WitnessLedger
