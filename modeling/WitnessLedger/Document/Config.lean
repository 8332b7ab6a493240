import WitnessLedger.Document.Basic
import WitnessLedger.Config.Basic

/-! # Documents of configurations

A field that is missing has its standard value; one that is null does not read.  An array may
leave out fields at its end. -/

namespace WitnessLedger

open Document

instance : Document ForkRule where
  toJson r := .string r.name
  ofJson? v := v.name?.bind ForkRule.ofName?

instance : Document LogLevel where
  toJson l := .string l.name
  ofJson? v := v.name?.bind LogLevel.ofName?

namespace Config

/-- The value of a field, or its standard value where it is missing. -/
def field? {α : Type} [Document α] (f : Fields) (name : String) (standard : α) : Option α :=
  match f.part? name with
  | some v => ofJson? v
  | none => some standard

/-- The names of the fields in their order. -/
def fieldNames : List String :=
  [ "consensus_nodes", "consensus_threshold", "compost_capacity", "significance_threshold",
    "relevance_scope", "fork_tie_break", "log_level"]

/-- The parts of a document, of which any may be missing. -/
def parts? : Json → Option Fields
  | .array elements =>
    if elements.length ≤ fieldNames.length then some ⟨fieldNames.zip elements⟩ else none
  | v => Fields.of? fieldNames v

/-- Reads a configuration; it is not validated. -/
def ofJson? (v : Json) : Option Config := do
  let f ← parts? v
  return { consensusNodes := ← field? f "consensus_nodes" standard.consensusNodes
           consensusThreshold := ← field? f "consensus_threshold" standard.consensusThreshold
           compostCapacity := ← field? f "compost_capacity" standard.compostCapacity
           significanceThreshold :=
             ← field? f "significance_threshold" standard.significanceThreshold
           relevanceScope := SortedSet.ofMembers
             (← field? f "relevance_scope" standard.relevanceScope.members)
           forkRule := ← field? f "fork_tie_break" standard.forkRule
           logLevel := ← field? f "log_level" standard.logLevel }

end Config

instance : Document Config where
  toJson c := .object [ ("consensus_nodes", toJson c.consensusNodes),
    ("consensus_threshold", toJson c.consensusThreshold),
    ("compost_capacity", toJson c.compostCapacity),
    ("significance_threshold", toJson c.significanceThreshold),
    ("relevance_scope", toJson (SortedSet.members c.relevanceScope)),
    ("fork_tie_break", toJson c.forkRule), ("log_level", toJson c.logLevel)]
  ofJson? := Config.ofJson?

end WitnessLedger
