import WitnessLedger.Command.Error
import WitnessLedger.Session

/-! # Collecting a quorum

The nodes of the panel vote for an entry one after the other, in their order, until it is
accepted. -/

namespace WitnessLedger.Command

/-- The outcome of a step of a command, and the session after it. -/
abbrev Outcome (α : Type) := Except CommandError α × Session

/-- Lets nodes vote for an entry until it is accepted, and gives the number of votes; `cast`
    have been cast before. -/
def collectFrom (entry : String) (panel cast : Nat) : List String → Session → Outcome Nat
  | [], s => (.error (.integrity (.noQuorum entry panel)), s)
  | node :: nodes, s =>
    match s.voteAndFinalize entry node true with
    | (.ok true, s) => (.ok (cast + 1), s)
    | (.ok false, s) => collectFrom entry panel (cast + 1) nodes s
    | (.error e, s) => (.error (.ledger e), s)

/-- Lets the nodes of the panel vote for an entry until it is accepted, and gives the number of
    votes. -/
def collectVotes (entry : String) (s : Session) : Outcome Nat :=
  collectFrom entry s.ledger.chain.panel.size 0 s.ledger.chain.panel.nodes s

end WitnessLedger.Command
