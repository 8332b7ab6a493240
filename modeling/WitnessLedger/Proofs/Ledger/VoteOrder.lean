import WitnessLedger.Proofs.Chain.Requests
import WitnessLedger.Proofs.Ledger.Chain

/-!
# Votes in any order

Witnesses that ask at the same time to have their votes recorded and counted are served one after
the other, in an order that nobody chooses.  It makes no difference which one: the requests are
answered the same, and they leave the same ledger, up to the order of the votes on an entry and the
order in which entries have been accepted.

## Key results

- `run_asking`: requests reach the chain, and nothing but the chain
- `voteOrder_run`: the order of requests makes no difference after any run of a ledger
-/

namespace WitnessLedger.Ledger

/-- A request, made at a moment, as an operation. -/
def ask (q : Instant × VoteRequest) : Action :=
  .voteAndFinalize q.1 q.2.entry q.2.witness q.2.accept

/-- Each of some requests with its answer: that its vote is recorded, or why not.  An operation that
    records a vote also tells whether the entry is accepted at that moment, which is up to the votes
    before it and no part of the answer here. -/
def replies (l : Ledger) (rs : List (Instant × VoteRequest)) :
    List (VoteRequest × Except LedgerError Unit) :=
  Run.chronicle (fun l q => l.act (ask q)) (fun l q => [(q.2,
    (l.voteAndFinalize q.1 q.2.entry q.2.witness q.2.accept).map fun _ => ())]) l rs

/-- What two ledgers have in common that differ only in the order and the times of votes, and in the
    order in which entries have been accepted. -/
structure EquallyVoted (l l' : Ledger) : Prop where
  chain : l.chain.EquallyVoted l'.chain
  /-- Everything else is the same. -/
  core : l' = { l with chain := l'.chain }

theorem act_ask (l : Ledger) (q : Instant × VoteRequest) :
    l.act (ask q) = { l with chain := l.chain.requested q.1 q.2 } :=
  stateAfter_chain l _

/-- Requests reach the chain, and nothing but the chain. -/
theorem run_asking (l : Ledger) (rs : List (Instant × VoteRequest)) :
    l.run (rs.map ask) = { l with chain := l.chain.polled rs } := by
  induction rs generalizing l with
  | nil => rfl
  | cons q rs ih =>
    have hstep : l.run ((q :: rs).map ask) = (l.act (ask q)).run (rs.map ask) := rfl
    rw [hstep, ih, act_ask]
    rfl

/-- The chain answers the requests. -/
theorem replies_eq (l : Ledger) (rs : List (Instant × VoteRequest)) :
    l.replies rs = l.chain.replies rs := by
  induction rs generalizing l with
  | nil => rfl
  | cons q rs ih =>
    have hanswer : (l.voteAndFinalize q.1 q.2.entry q.2.witness q.2.accept).map (fun _ => ()) =
        (l.chain.voteAndFinalize q.1 q.2.entry q.2.witness q.2.accept).map fun _ => () := by
      rw [voteAndFinalize]
      cases l.chain.voteAndFinalize q.1 q.2.entry q.2.witness q.2.accept <;> rfl
    have hrest := ih (l.act (ask q))
    rw [act_ask] at hrest
    rw [replies, Run.chronicle, ← replies, hanswer, act_ask, hrest]
    rfl

/-- Whatever has been done to a new ledger, take any requests to vote in which no witness asks twice
    for the same entry, and the same requests in another order, each made at any moment.  Both
    orders give each request the same answer, and lead to ledgers that differ only in the order and
    the times of the votes on an entry and in the order in which entries have been accepted. -/
theorem voteOrder_run (panel : Panel) (rule : ForkRule) (capacity significance : Nat)
    (scope : SortedSet) (as : List Action) (rs rs' : List (Instant × VoteRequest))
    (hperm : (rs.map Prod.snd).Perm (rs'.map Prod.snd))
    (h : ((rs.map Prod.snd).map fun r => (r.entry, r.witness)).Nodup) :
    let l := (new panel rule capacity significance scope).run as
    (l.replies rs).Perm (l.replies rs') ∧
      EquallyVoted (l.run (rs.map ask)) (l.run (rs'.map ask)) := by
  intro l
  have hd : Entry.DistinctIds l.chain.entries := by
    show Entry.DistinctIds ((new panel rule capacity significance scope).run as).chain.entries
    rw [chain_run]
    exact Chain.distinctIds_run panel rule _
  rw [replies_eq, replies_eq, run_asking, run_asking]
  exact ⟨Chain.perm_replies hd hperm h, Chain.equallyVoted_polled hd hperm h, rfl⟩

/-- The members vote on a credential, of which two have to accept it; a stranger votes as well, and
    one member votes on an entry that is not there. -/
def credentialVotes : List VoteRequest :=
  let credential := "act:credential_issuance:x1"
  [ ⟨credential, "w1", true⟩, ⟨credential, "stranger", true⟩, ⟨credential, "w2", true⟩,
    ⟨"act:credential_issuance:x2", "w1", true⟩, ⟨credential, "w3", false⟩ ]

/-- The requests are made at once, in the one order or in the other one, and a second later. -/
theorem voteOrder_credentialVotes :
    let credential := Content.plain (.credentialIssuance ⟨"lct:a", "lct:b", "member"⟩)
    let proposal := Action.propose .epoch "x1" .credentialIssuance credential .root
    let l := (new Chain.trio .lowestEntryId 10 5 .empty).run [proposal]
    let later : Instant := ⟨1, 0, by decide⟩
    let rs := credentialVotes.map (Instant.epoch, ·)
    let rs' := credentialVotes.reverse.map (later, ·)
    (rs.map Prod.snd).Perm (rs'.map Prod.snd) ∧
      ((rs.map Prod.snd).map fun r => (r.entry, r.witness)).Nodup ∧
      (l.replies rs).Perm (l.replies rs') ∧
      EquallyVoted (l.run (rs.map ask)) (l.run (rs'.map ask)) := by
  intro credential proposal l later rs rs'
  have hperm : (rs.map Prod.snd).Perm (rs'.map Prod.snd) := by decide +kernel
  have hdistinct : ((rs.map Prod.snd).map fun r => (r.entry, r.witness)).Nodup := by
    decide +kernel
  exact ⟨hperm, hdistinct,
    voteOrder_run Chain.trio .lowestEntryId 10 5 .empty [proposal] rs rs' hperm hdistinct⟩

end WitnessLedger.Ledger
