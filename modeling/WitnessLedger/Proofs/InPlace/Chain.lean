import WitnessLedger.Proofs.Chain.Effect

/-!
# Operations of a chain in place

An operation checks and writes the chain part by part.  If a check fails after a write, what has
been written stays.  Here each operation is the sequence of its checks and writes, in a monad whose
errors keep the state, and it is shown to leave what the operation on a whole chain leaves: either
all of it, or the chain as it was.

## Key results

- `check_bind_eq`: a check before the first write does no harm
- `bind_eq`: what follows steps that write all or nothing must not fail after them
- `Chain.InPlace.submitVote_eq`, `voteAndFinalize_eq`, `sealBlock_eq` and their kind: each sequence
  of steps writes all or nothing
-/

namespace WitnessLedger

/-- Steps that read and write a state.  A step that fails leaves the state as the steps before it
    have written it. -/
abbrev InPlace (σ α : Type) : Type := EStateM LedgerError σ α

namespace InPlace

variable {σ τ α β : Type}

/-- A check, which writes nothing. -/
def check (r : Except LedgerError α) : InPlace σ α := fun s =>
  match r with
  | .ok a => .ok a s
  | .error e => .error e s

/-- Steps on a part of a state. -/
def within (view : σ → τ) (update : σ → τ → σ) (x : InPlace τ α) : InPlace σ α := fun s =>
  match x (view s) with
  | .ok a t => .ok a (update s t)
  | .error e t => .error e (update s t)

/-- How an operation ends that writes all or nothing. -/
def allOrNothing (s : σ) : Except LedgerError (α × σ) → EStateM.Result LedgerError σ α
  | .ok (a, s') => .ok a s'
  | .error e => .error e s

variable {s : σ}

theorem bind_of_ok {x : InPlace σ α} {f : α → InPlace σ β} {a : α} {s' : σ} (h : x s = .ok a s') :
    (x >>= f) s = f a s' := by
  simp only [Bind.bind, EStateM.bind, h]

theorem bind_of_error {x : InPlace σ α} {f : α → InPlace σ β} {e : LedgerError} {s' : σ}
    (h : x s = .error e s') : (x >>= f) s = .error e s' := by
  simp only [Bind.bind, EStateM.bind, h]

theorem check_of_ok {r : Except LedgerError α} {a : α} (h : r = .ok a) :
    (check r : InPlace σ α) s = .ok a s := by
  rw [h]
  rfl

theorem check_of_error {r : Except LedgerError α} {e : LedgerError} (h : r = .error e) :
    (check r : InPlace σ α) s = .error e s := by
  rw [h]
  rfl

theorem get_bind (f : σ → InPlace σ β) (s : σ) : (get >>= f) s = f s s := rfl

theorem modify_bind (g : σ → σ) (f : PUnit → InPlace σ β) (s : σ) :
    (modify g >>= f) s = f ⟨⟩ (g s) := rfl

/-- A check before the first write does no harm: what comes after it decides. -/
theorem check_bind_eq {r : Except LedgerError α} {f : α → InPlace σ β}
    {g : α → Except LedgerError (β × σ)} (h : ∀ a, r = .ok a → f a s = allOrNothing s (g a)) :
    (check r >>= f) s = allOrNothing s (r >>= g) := by
  cases r with
  | error e => rfl
  | ok a => exact h a rfl

/-- What comes after steps that write all or nothing decides, unless it fails after they have
    written. -/
theorem bind_eq {x : InPlace σ α} {r : Except LedgerError (α × σ)} (hx : x s = allOrNothing s r)
    {f : α → InPlace σ β} {g : α × σ → Except LedgerError (β × σ)}
    (h : ∀ a s', r = .ok (a, s') → f a s' = allOrNothing s (g (a, s'))) :
    (x >>= f) s = allOrNothing s (r >>= g) := by
  cases r with
  | error e => exact bind_of_error hx
  | ok p => exact (bind_of_ok hx).trans (h p.1 p.2 rfl)

theorem map_bind {ε γ : Type} (x : Except ε α) (g : α → Except ε β) (f : β → γ) :
    (x >>= g).map f = x >>= fun a => (g a).map f := by
  cases x <;> rfl

/-- Writes for one element of a list after the other. -/
theorem forM_modify (f : β → σ → σ) (xs : List β) (s : σ) :
    (forM xs fun x => modify (f x) : InPlace σ PUnit) s =
      .ok ⟨⟩ (xs.foldl (fun s x => f x s) s) := by
  induction xs generalizing s with
  | nil => rfl
  | cons x xs ih =>
    have hx : (modify (f x) : InPlace σ PUnit) s = .ok ⟨⟩ (f x s) := rfl
    rw [List.forM_cons, bind_of_ok hx, ih, List.foldl_cons]

end InPlace

namespace Chain

variable {c : Chain}

/-- Two changes of one entry are one. -/
theorem update_update {id : String} {f g : Entry → Entry} (hf : ∀ x, (f x).id = x.id) :
    (c.update id f).update id g = c.update id fun e => g (f e) := by
  unfold update
  simp only [List.map_map]
  congr 1
  refine List.map_congr_left fun x _ => ?_
  by_cases hx : x.id = id
  · simp [hx, hf]
  · simp [hx]

namespace InPlace

open WitnessLedger.InPlace

/-- Proposes content for a level. -/
def propose (now : Instant) (suffix : String) (kind : EntryKind) (content : Content)
    (level : Level) : InPlace Chain Entry := do
  check <| content.admit kind
  let e := (← get).draft now suffix kind content level
  modify fun c => { c with latestEntryHash := e.contentHash }
  modify fun c => { c with pending := c.pending ++ [e.id] }
  modify fun c => { c with entries := insertEntry e c.entries }
  return e

/-- Records a vote. -/
def submitVote (now : Instant) (entry witness : String) (accept : Bool) (reason : Option String) :
    InPlace Chain Vote := do
  let c ← get
  let e ← check (c.findEntry entry)
  if !c.panel.contains witness then throw (.unauthorized witness)
  if e.hasVoteFrom witness then throw (.duplicateVote entry witness)
  if e.phase.isTerminal then throw (.invalidState (.closedToVotes entry e.phase))
  let vote := Vote.cast witness entry accept reason now
  modify (·.update entry fun e => { e with votes := e.votes ++ [vote] })
  modify (·.update entry (·.advanced .voting))
  return vote

/-- Accepts an entry if it has a quorum, and tells whether it is accepted. -/
def finalize (id : String) : InPlace Chain Bool := do
  let c ← get
  let e ← check (c.findEntry id)
  match e.phase with
  | .accepted | .finalized => return true
  | .rejected => throw (.invalidState (.rejected id))
  | .proposed | .voting =>
    if c.hasQuorum e then
      modify (·.update id (·.advanced .accepted))
      modify fun c => { c with accepted := c.accepted ++ [id] }
      return true
    else return false

/-- Rejects an open entry that cannot reach a quorum any more. -/
def reject (id : String) : InPlace Chain Unit := do
  let c ← get
  let e ← check (c.findEntry id)
  if !e.phase.isOpen then throw (.invalidState (.notOpen id e.phase))
  if c.panel.isQuorum e.requiredWitnesses (c.bestCase e) then
    throw (.invalidState (.reachable id))
  modify (·.update id (·.advanced .rejected))
  modify fun c => { c with pending := c.pending.filter (· != id) }

/-- Records a vote and accepts the entry if it then has a quorum.  The vote is written before the
    attempt to accept. -/
def voteAndFinalize (now : Instant) (entry witness : String) (accept : Bool) :
    InPlace Chain Bool := do
  let _ ← submitVote now entry witness accept none
  if ((← get).checkConsensus entry).1 then finalize entry else return false

/-- Writes a block with its entries. -/
def writeBlock (members : List Entry) (block : Block) : InPlace Chain (Option Block) := do
  forM block.entries fun e => modify (store · e)
  modify fun c => { c with pending := c.pending.filter fun id => !(members.any (·.id == id)) }
  modify fun c => { c with blocks := c.blocks ++ [block] }
  return some block

/-- Seals the accepted entries, if there are any.  The accepted ids are taken before it is known
    whether there is anything to seal. -/
def sealBlock (now : Instant) : InPlace Chain (Option Block) := do
  let c ← get
  modify fun c => { c with accepted := [] }
  if c.sealable = [] then return none
  else writeBlock c.sealable (c.blockOf now c.sealable)

theorem propose_eq (c : Chain) (now : Instant) (suffix : String) (kind : EntryKind)
    (content : Content) (level : Level) :
    propose now suffix kind content level c =
      allOrNothing c (c.propose now suffix kind content level) :=
  check_bind_eq fun _ _ => rfl

theorem submitVote_eq (c : Chain) (now : Instant) (entry witness : String) (accept : Bool)
    (reason : Option String) :
    submitVote now entry witness accept reason c =
      allOrNothing c (c.submitVote now entry witness accept reason) := by
  refine check_bind_eq fun e _ => ?_
  cases c.panel.contains witness with
  | false => rfl
  | true =>
    cases e.hasVoteFrom witness with
    | true => rfl
    | false =>
      cases e.phase.isTerminal with
      | true => rfl
      | false => exact congrArg (EStateM.Result.ok _) (update_update fun _ => rfl)

theorem finalize_eq (c : Chain) (id : String) :
    finalize id c = allOrNothing c (c.finalize id) := by
  refine check_bind_eq fun e _ => ?_
  cases e.phase with
  | accepted => rfl
  | finalized => rfl
  | rejected => rfl
  | proposed =>
    cases c.hasQuorum e <;> rfl
  | voting =>
    cases c.hasQuorum e <;> rfl

theorem reject_eq (c : Chain) (id : String) :
    reject id c = allOrNothing c ((c.reject id).map fun c' => ((), c')) := by
  unfold Chain.reject
  rw [map_bind]
  refine check_bind_eq fun e _ => ?_
  cases e.phase.isOpen with
  | false => rfl
  | true =>
    cases c.panel.isQuorum e.requiredWitnesses (c.bestCase e) <;> rfl

/-- A vote that has been written is not followed by a failure. -/
theorem voteAndFinalize_eq (c : Chain) (now : Instant) (entry witness : String) (accept : Bool) :
    voteAndFinalize now entry witness accept c =
      allOrNothing c (c.voteAndFinalize now entry witness accept) := by
  refine bind_eq (submitVote_eq c now entry witness accept none) fun vote c' hvote => ?_
  rw [get_bind]
  show _ = allOrNothing c
    (if (c'.checkConsensus entry).1 then c'.finalize entry else .ok (false, c'))
  split
  · -- the entry takes votes, so that it has not been rejected
    obtain ⟨e, he, hphase⟩ := entry?_of_submitVote hvote
    obtain ⟨done, c'', hdone, -⟩ := exists_finalize_eq_ok he hphase
    rw [finalize_eq, hdone]
    rfl
  · rfl

theorem sealBlock_eq (c : Chain) (now : Instant) :
    sealBlock now c = .ok (c.sealBlock now).1 (c.sealBlock now).2 := by
  unfold sealBlock
  rw [Chain.sealBlock_eq, get_bind, modify_bind]
  by_cases hnone : c.sealable = []
  · rw [if_pos hnone, if_pos hnone]
    rfl
  · rw [if_neg hnone, if_neg hnone, writeBlock, bind_of_ok (forM_modify ..), foldl_store]
    rfl

end InPlace

end Chain

end WitnessLedger
