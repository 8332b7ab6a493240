import WitnessLedger.Chain.Proposal
import WitnessLedger.Chain.Sealing
import WitnessLedger.Chain.Voting
import WitnessLedger.Proofs.Run

/-!
# Actions on a chain

The operations that change a chain, as data: a run is a list of them with any arguments, in any
order, those that fail included.  Three histories of a run are kept: the suffixes that its new
ids were made with, the entries that it proposed, and the ids that it accepted.
-/

namespace WitnessLedger.Chain

/-- An operation with all that it is given: the time, the suffix of a new id, and its arguments. -/
inductive Action where
  | propose (now : Instant) (suffix : String) (kind : EntryKind) (content : Content)
    (level : Level)
  | submitVote (now : Instant) (entry witness : String) (accept : Bool) (reason : Option String)
  | finalize (entry : String)
  | reject (entry : String)
  | sealBlock (now : Instant)
  | recordSettlement (transfer : String)

/-- The chain after an operation. -/
def act (c : Chain) : Action → Chain
  | .propose now suffix kind content level =>
    Run.stateAfter c (c.propose now suffix kind content level)
  | .submitVote now entry witness accept reason =>
    Run.stateAfter c (c.submitVote now entry witness accept reason)
  | .finalize entry => Run.stateAfter c (c.finalize entry)
  | .reject entry => (c.reject entry).toOption.getD c
  | .sealBlock now => (c.sealBlock now).2
  | .recordSettlement transfer => c.recordSettlement transfer

/-- The chain after a run. -/
def run (c : Chain) (as : List Action) : Chain := as.foldl act c

/-- The phase of the entry with an id. -/
def phase? (c : Chain) (id : String) : Option Phase := c.entry? id |>.map (·.phase)

/-- The entry that an operation proposes. -/
def proposes (c : Chain) : Action → List Entry
  | .propose now suffix kind content level =>
    match c.propose now suffix kind content level with
    | .ok (e, _) => [e]
    | .error _ => []
  | _ => []

/-- The suffix that an operation takes for a new id.  A proposal that is refused takes none. -/
def draws (c : Chain) : Action → List String
  | .propose now suffix kind content level =>
    match c.propose now suffix kind content level with
    | .ok _ => [suffix]
    | .error _ => []
  | _ => []

/-- The id of an entry that was not accepted before an operation and is accepted after it. -/
def accepts (c : Chain) : Action → List String
  | .finalize id =>
    if c.phase? id ≠ some .accepted ∧ (c.act (.finalize id)).phase? id = some .accepted then [id]
    else []
  | _ => []

/-- The entries that a run proposes, in the order of proposal. -/
def proposals (c : Chain) (as : List Action) : List Entry := Run.chronicle act proposes c as

/-- The suffixes that a run takes for new ids. -/
def suffixes (c : Chain) (as : List Action) : List String := Run.chronicle act draws c as

/-- The ids of the entries that a run accepts, in the order of acceptance. -/
def acceptances (c : Chain) (as : List Action) : List String := Run.chronicle act accepts c as

@[simp] theorem run_append (c : Chain) (as bs : List Action) :
    c.run (as ++ bs) = (c.run as).run bs := List.foldl_append

theorem run_concat (c : Chain) (as : List Action) (a : Action) :
    c.run (as ++ [a]) = (c.run as).act a := run_append c as [a]

@[simp] theorem proposals_cons (c : Chain) (a : Action) (as : List Action) :
    c.proposals (a :: as) = c.proposes a ++ (c.act a).proposals as := rfl

@[simp] theorem proposals_nil (c : Chain) : c.proposals [] = [] := rfl

@[simp] theorem proposals_recordSettlement (c : Chain) (transfers : List String) :
    c.proposals (transfers.map .recordSettlement) = [] := by
  induction transfers generalizing c with
  | nil => rfl
  | cons t transfers ih =>
    rw [List.map_cons, proposals_cons, ih]
    rfl

end WitnessLedger.Chain
