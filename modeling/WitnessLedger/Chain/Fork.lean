import WitnessLedger.Entry.Basic

/-! # Forks

Of several candidates the one with the most accepting votes wins.  A tie between leaders is
broken by their age, by their id, or not at all. -/

namespace WitnessLedger

/-- How a tie between candidates is broken. -/
inductive ForkRule where
  /-- The oldest wins, and of the oldest the one with the lowest id. -/
  | earliestTimestamp
  /-- The lowest id wins. -/
  | lowestEntryId
  /-- A tie is reported. -/
  | manual
  deriving DecidableEq, Inhabited

namespace ForkRule

/-- All rules. -/
def all : List ForkRule := [earliestTimestamp, lowestEntryId, manual]

/-- The name of a rule. -/
def name : ForkRule → String
  | earliestTimestamp => "earliest_timestamp"
  | lowestEntryId => "lowest_entry_id"
  | manual => "manual"

/-- The rule with a given name. -/
def ofName? (s : String) : Option ForkRule := all.find? fun r => r.name == s

/-- The rule that a setting names, in any case and with blanks around it; two rules have a
    shorter name as well.  No letter beyond ASCII has a lowercase form that occurs in a name. -/
def ofSetting? (s : String) : Option ForkRule :=
  match String.ofList ((Text.trim s.toList).map Char.toLower) with
  | "earliest_timestamp" | "timestamp" => some earliestTimestamp
  | "lowest_entry_id" | "entry_id" => some lowestEntryId
  | "manual" => some manual
  | _ => none

/-- Whether a candidate is strictly before another under the order of a rule. -/
def before (r : ForkRule) (a b : Entry) : Bool :=
  match r with
  | earliestTimestamp =>
    if a.timestamp = b.timestamp then a.id < b.id else a.timestamp.le b.timestamp
  | _ => a.id < b.id

end ForkRule

namespace Fork

/-- The most accepting votes that a candidate has. -/
def mostAccepts (candidates : List Entry) : Nat := (candidates.map (·.accepts)).foldl max 0

/-- The candidates with the most accepting votes. -/
def leaders (candidates : List Entry) : List Entry :=
  candidates.filter fun e => e.accepts == mostAccepts candidates

/-- The first of the entries that none is before. -/
def first (before : Entry → Entry → Bool) (e : Entry) (rest : List Entry) : Entry :=
  rest.foldl (fun best x => if before x best then x else best) e

/-- The winner among the candidates. -/
def resolve (rule : ForkRule) (candidates : List Entry) : Except LedgerError Entry :=
  match leaders candidates with
  | [] => .error (.validation .noCandidates)
  | [e] => .ok e
  | e :: rest =>
    match rule with
    | .manual => .error (.forkTie ((e :: rest).map (·.id)))
    | rule => .ok (first rule.before e rest)

end Fork

end WitnessLedger
