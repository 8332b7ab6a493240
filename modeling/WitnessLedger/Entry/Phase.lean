/-! # Phases of an entry

An entry is proposed, voted on, accepted and sealed into a block; while it is not accepted it
may also be rejected.  Phases only move forward, and sealed and rejected entries stay as they
are. -/

namespace WitnessLedger

/-- How far an entry has come. -/
inductive Phase where
  | proposed
  | voting
  /-- Enough witnesses have accepted the entry. -/
  | accepted
  /-- The entry is sealed into a block. -/
  | finalized
  | rejected
  deriving DecidableEq, Inhabited

namespace Phase

/-- All phases. -/
def all : List Phase := [proposed, voting, accepted, finalized, rejected]

/-- The name of a phase. -/
def name : Phase → String
  | proposed => "proposed"
  | voting => "voting"
  | accepted => "accepted"
  | finalized => "finalized"
  | rejected => "rejected"

/-- The phase with a given name. -/
def ofName? (s : String) : Option Phase := all.find? fun p => p.name == s

/-- How many steps a phase is from the start; both ends are equally far. -/
def rank : Phase → Nat
  | proposed => 0
  | voting => 1
  | accepted => 2
  | finalized => 3
  | rejected => 3

/-- Whether no other phase can follow. -/
def isTerminal : Phase → Bool
  | finalized | rejected => true
  | _ => false

/-- Whether the vote on an entry is still open. -/
def isOpen : Phase → Bool
  | proposed | voting => true
  | _ => false

/-- Whether a phase may follow another: only an accepted entry is sealed, only one that is
    still open is rejected, and any other step goes to a later phase. -/
def canAdvanceTo (p next : Phase) : Bool :=
  !p.isTerminal &&
    match next with
    | rejected => p.isOpen
    | finalized => p == accepted
    | _ => p.rank < next.rank

theorem ofName?_name (p : Phase) : ofName? p.name = some p := by cases p <;> rfl

end Phase

end WitnessLedger
