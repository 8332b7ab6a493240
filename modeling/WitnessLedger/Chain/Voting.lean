import WitnessLedger.Chain.Basic

/-! # Voting

A vote needs a known entry, a witness of the panel that has not voted on it, and an entry that
still takes votes; the first of these that fails is reported.  An entry is accepted once its
accepting votes are a quorum, and it can be rejected once they cannot become one any more. -/

namespace WitnessLedger.Chain

/-- The entry with an id, or an error that names it. -/
def findEntry (c : Chain) (id : String) : Except LedgerError Entry :=
  match c.entry? id with
  | some e => .ok e
  | none => .error (.notFound (.entry id))

/-- Records a vote. -/
def submitVote (c : Chain) (now : Instant) (entry witness : String) (accept : Bool)
    (reason : Option String) : Except LedgerError (Vote × Chain) := do
  let e ← c.findEntry entry
  if !c.panel.contains witness then throw (.unauthorized witness)
  if e.hasVoteFrom witness then throw (.duplicateVote entry witness)
  if e.phase.isTerminal then throw (.invalidState (.closedToVotes entry e.phase))
  let vote := Vote.cast witness entry accept reason now
  return (vote, c.update entry (·.withVote vote))

/-- The share of the panel that accepts an entry. -/
def acceptShare (c : Chain) (e : Entry) : Double := c.panel.share e.accepts

/-- Whether the accepting votes of an entry are a quorum. -/
def hasQuorum (c : Chain) (e : Entry) : Bool := c.panel.isQuorum e.requiredWitnesses e.accepts

/-- Whether an entry has a quorum, and the share that accepts it.  An unknown entry has
    neither. -/
def checkConsensus (c : Chain) (id : String) : Bool × Double :=
  match c.entry? id with
  | some e => (c.hasQuorum e, c.acceptShare e)
  | none => (false, Double.ratio 0 1)

/-- Accepts an entry if it has a quorum, and tells whether it is accepted. -/
def finalize (c : Chain) (id : String) : Except LedgerError (Bool × Chain) := do
  let e ← c.findEntry id
  match e.phase with
  | .accepted | .finalized => return (true, c)
  | .rejected => throw (.invalidState (.rejected id))
  | .proposed | .voting =>
    if c.hasQuorum e then
      let c := c.update id (·.advanced .accepted)
      return (true, { c with accepted := c.accepted ++ [id] })
    else return (false, c)

/-- The accepting votes that an entry has if every witness that has not voted accepts it. -/
def bestCase (c : Chain) (e : Entry) : Nat := e.accepts + (c.panel.size - e.votes.length)

/-- Rejects an open entry that cannot reach a quorum any more. -/
def reject (c : Chain) (id : String) : Except LedgerError Chain := do
  let e ← c.findEntry id
  if !e.phase.isOpen then throw (.invalidState (.notOpen id e.phase))
  if c.panel.isQuorum e.requiredWitnesses (c.bestCase e) then
    throw (.invalidState (.reachable id))
  let c := c.update id (·.advanced .rejected)
  return { c with pending := c.pending.filter (· != id) }

/-- Records a vote and accepts the entry if it then has a quorum. -/
def voteAndFinalize (c : Chain) (now : Instant) (entry witness : String) (accept : Bool) :
    Except LedgerError (Bool × Chain) := do
  let (_, c) ← c.submitVote now entry witness accept none
  if (c.checkConsensus entry).1 then c.finalize entry else return (false, c)

end WitnessLedger.Chain
