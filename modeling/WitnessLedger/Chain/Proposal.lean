import WitnessLedger.Chain.Basic

/-! # Proposals

A proposal adds an entry that links to the proposal before it.  Its id has the kind and a
fresh suffix. -/

namespace WitnessLedger

/-- The id of an entry that was proposed here. -/
def Entry.proposedId (kind : EntryKind) (suffix : String) : String :=
  "act:" ++ kind.name ++ ":" ++ suffix

/-- Refuses content of another kind and invalid content. -/
def Content.admit (content : Content) (kind : EntryKind) : Except LedgerError Unit :=
  if content.kind = kind then content.validate.mapError .validation
  else .error (.validation (.kindMismatch content.kind kind))

namespace Chain

/-- Adds an entry to the end of a list; an entry that has its id already is replaced. -/
def insertEntry (e : Entry) : List Entry → List Entry
  | [] => [e]
  | x :: xs => if x.id = e.id then e :: xs else x :: insertEntry e xs

/-- The state after an entry has been proposed. -/
def push (c : Chain) (e : Entry) : Chain :=
  { c with entries := insertEntry e c.entries, pending := c.pending ++ [e.id]
           latestEntryHash := e.contentHash }

/-- The entry that a proposal makes. -/
def draft (c : Chain) (now : Instant) (suffix : String) (kind : EntryKind) (content : Content)
    (level : Level) : Entry :=
  Entry.new (Entry.proposedId kind suffix) kind level content c.latestEntryHash now

/-- Proposes content for a level. -/
def propose (c : Chain) (now : Instant) (suffix : String) (kind : EntryKind) (content : Content)
    (level : Level) : Except LedgerError (Entry × Chain) := do
  content.admit kind
  let e := c.draft now suffix kind content level
  return (e, c.push e)

end Chain

end WitnessLedger
