import Mathlib.Data.List.Forall2
import WitnessLedger.Tiers.Basic
import WitnessLedger.Proofs.Run

/-!
# Histories of tiers

What the tiers should hold after some operations, said by these operations alone: which of them
took content in, what it scored, and so on which level its entry is kept and which steps are
logged.  Nothing here looks at tiers.

## Key results

- `wasSeen_concat`, `taken_concat`, `logged_concat`: what one more operation adds
- `admit_of_mem_taken`: what is taken in has been admitted
- `taken_forall₂_suffixes`: the ids of what is taken in
-/

namespace WitnessLedger

/-- Whether content is admitted as content of a kind. -/
def Content.suits (content : Content) (kind : EntryKind) : Bool :=
  match content.admit kind with
  | .ok _ => true
  | .error _ => false

theorem Content.suits_iff {content : Content} {kind : EntryKind} :
    content.suits kind = true ↔ content.admit kind = .ok () := by
  rw [suits]
  cases content.admit kind <;> simp

theorem Content.suits_of_error {content : Content} {kind : EntryKind} {err : LedgerError}
    (h : content.admit kind = .error err) : content.suits kind = false := by
  rw [suits, h]

namespace Tiers

/-- An operation with all that it is given.  The chain that an entry is proposed to may be another
    one each time. -/
inductive Action where
  | ingest (now : Readings) (suffix : String) (kind : EntryKind) (content : Content)
  | promoteToRoot (chain : Chain) (now : Readings) (suffix id : String)
  | resetNovelty

namespace Action

/-- Whether an operation takes content in. -/
def isAdmitted : Action → Bool
  | .ingest _ _ kind content => content.suits kind
  | _ => false

/-- Whether an operation takes in content of a kind with a subtype. -/
def takesIn (kind : EntryKind) (subtype : Option String) : Action → Bool
  | .ingest _ _ k content => content.suits k && k == kind && content.subtype == subtype
  | _ => false

/-- The suffix that taking content in uses. -/
def suffix? : Action → Option String
  | .ingest _ suffix kind content => if content.suits kind then some suffix else none
  | _ => none

/-- Whether an operation forgets what has been seen. -/
def isReset : Action → Bool
  | .resetNovelty => true
  | _ => false

end Action

/-- The suffixes of the entries that some operations take in, in order. -/
def suffixes (as : List Action) : List String := as.filterMap Action.suffix?

/-- The operations since the last reset, the latest first. -/
def sinceReset (as : List Action) : List Action := as.reverse.takeWhile (!·.isReset)

/-- Whether content of a kind with a subtype was taken in since the last reset. -/
def wasSeen (as : List Action) (kind : EntryKind) (subtype : Option String) : Bool :=
  (sinceReset as).any (·.takesIn kind subtype)

/-- The total of content of a kind after some operations: three for what is new, two for an
    anomaly, one for a reference into the scope and two for consequences. -/
def totalAfter (scope : SortedSet) (as : List Action) (kind : EntryKind) (content : Content) :
    Nat :=
  (if wasSeen as kind content.subtype then 0 else 3)
    + (if content.anomalyScore.any Score.anomalyThreshold.lt then 2 else 0)
    + (if content.references.any scope.contains then 1 else 0)
    + (if kind.isConsequential then 2 else 0)

/-- The level that a total leads to. -/
def levelFor (total : Nat) : Level :=
  if 5 ≤ total then .stem else if 3 ≤ total then .leaf else .compost

/-- The number of entries that the compost holds after some operations. -/
def compostSize (capacity : Nat) (as : List Action) : Nat :=
  min (as.countP Action.isAdmitted) (max 1 capacity)

/-- The entry that is made of content after some operations. -/
def entryAfter (capacity : Nat) (scope : SortedSet) (as : List Action) (now : Instant)
    (suffix : String) (kind : EntryKind) (content : Content) : Entry :=
  Entry.new (ingestedId kind suffix) kind (levelFor (totalAfter scope as kind content)) content
    (Digest.ofText (Text.Numeral.text (compostSize capacity as))) now

/-- The entry that an operation takes in after others. -/
def takenBy (capacity : Nat) (scope : SortedSet) (as : List Action) : Action → List Entry
  | .ingest now suffix kind content =>
    if content.suits kind then [entryAfter capacity scope as now.entry suffix kind content] else []
  | _ => []

/-- The entries that some operations take in, in order. -/
def taken (capacity : Nat) (scope : SortedSet) (as : List Action) : List Entry :=
  Run.chronicle (fun before a => before ++ [a]) (takenBy capacity scope) [] as

/-- The step of an entry of the stem that is proposed to a chain. -/
def stepToRoot (now : Instant) (id : String) (root : Entry) : Promotion :=
  { entryId := id, rootEntryId := some root.id, source := .stem, target := .root, total := none
    timestamp := now }

/-- The step that an operation logs after others: for content that comes to the leaf or the stem
    level, with its total, and for an entry of the stem that is proposed to a chain. -/
def loggedBy (capacity : Nat) (scope : SortedSet) (as : List Action) : Action → List Promotion
  | .ingest now suffix kind content =>
    let total := totalAfter scope as kind content
    if content.suits kind && 3 ≤ total then
      [{ entryId := ingestedId kind suffix, rootEntryId := none, source := .compost
         target := levelFor total, total := some (UInt32.ofNat total), timestamp := now.record }]
    else []
  | .promoteToRoot chain now suffix id =>
    match (taken capacity scope as).find? fun e => e.level == .stem && e.id == id with
    | some e => [stepToRoot now.record id (chain.draft now.entry suffix e.kind e.content .root)]
    | none => []
  | .resetNovelty => []

/-- The steps that some operations log, in order. -/
def logged (capacity : Nat) (scope : SortedSet) (as : List Action) : List Promotion :=
  Run.chronicle (fun before a => before ++ [a]) (loggedBy capacity scope) [] as

theorem totalAfter_le (scope : SortedSet) (as : List Action) (kind : EntryKind)
    (content : Content) : totalAfter scope as kind content ≤ 8 := by
  unfold totalAfter
  split <;> split <;> split <;> split <;> decide

/-! ## One operation further -/

theorem wasSeen_concat (as : List Action) (a : Action) (kind : EntryKind)
    (subtype : Option String) :
    wasSeen (as ++ [a]) kind subtype =
      if a.isReset then false else a.takesIn kind subtype || wasSeen as kind subtype := by
  unfold wasSeen sinceReset
  rw [List.reverse_append, List.reverse_singleton, List.singleton_append, List.takeWhile_cons]
  cases a.isReset <;> simp

section Concat

variable (capacity : Nat) (scope : SortedSet) (as : List Action) (a : Action)

theorem foldl_concat (before : List Action) :
    as.foldl (fun before a => before ++ [a]) before = before ++ as := by
  induction as generalizing before with
  | nil => rw [List.foldl_nil, List.append_nil]
  | cons a as ih => rw [List.foldl_cons, ih, List.append_assoc, List.singleton_append]

theorem taken_concat :
    taken capacity scope (as ++ [a]) = taken capacity scope as ++ takenBy capacity scope as a := by
  rw [taken, Run.chronicle_concat, foldl_concat, List.nil_append, ← taken]

theorem logged_concat :
    logged capacity scope (as ++ [a]) =
      logged capacity scope as ++ loggedBy capacity scope as a := by
  rw [logged, Run.chronicle_concat, foldl_concat, List.nil_append, ← logged]

theorem length_taken : (taken capacity scope as).length = as.countP Action.isAdmitted := by
  induction as using List.reverseRecOn with
  | nil => rfl
  | append_singleton as a ih =>
    rw [taken_concat, List.length_append, List.countP_append, ih, List.countP_singleton]
    congr 1
    cases a with
    | ingest now suffix kind content =>
      rw [takenBy, Action.isAdmitted]
      split <;> rfl
    | _ => rfl

end Concat

/-! ## What is taken in -/

/-- What is taken in has been admitted. -/
theorem admit_of_mem_taken {capacity : Nat} {scope : SortedSet} {as : List Action} {e : Entry}
    (he : e ∈ taken capacity scope as) : e.content.admit e.kind = .ok () := by
  obtain ⟨before, a, after, -, he⟩ := Run.mem_chronicle.1 he
  cases a with
  | ingest now suffix kind content =>
    rw [takenBy] at he
    split at he
    · next h =>
      rw [List.mem_singleton] at he
      subst he
      exact Content.suits_iff.1 h
    · cases he
  | _ => cases he

/-- The entries that are taken in have the ids that the suffixes make. -/
theorem taken_forall₂_suffixes (capacity : Nat) (scope : SortedSet) (as : List Action) :
    List.Forall₂ (fun e s => e.id = ingestedId e.kind s) (taken capacity scope as)
      (suffixes as) := by
  induction as using List.reverseRecOn with
  | nil => exact .nil
  | append_singleton as a ih =>
    rw [taken_concat, suffixes, List.filterMap_append]
    refine List.rel_append ih ?_
    cases a with
    | ingest now suffix kind content =>
      rw [takenBy, List.filterMap_cons, Action.suffix?]
      split
      · exact .cons rfl .nil
      · exact .nil
    | _ => exact .nil

end Tiers

end WitnessLedger
