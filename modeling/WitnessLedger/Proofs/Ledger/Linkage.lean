import WitnessLedger.Proofs.Chain.Linkage
import WitnessLedger.Proofs.Ledger.Chain

/-!
# Links between what a ledger adds to its chain

Five operations add entries to the chain of a ledger, and each of them hands out the entry that it
has added, or names it: a proposal, a promotion from the stem, the anchoring of a statement, which
may add an alert instead, a check of balances and a discharge.  However they follow each other,
and whatever happens in between, the entries that they add form one chain of links.

## Key results

- `adds_eq_proposes`: what an operation hands out is what it has added to the chain
- `linkage_run`: what a run has added is one chain of links in every later state
-/

namespace WitnessLedger.Ledger

/-- The entry that an operation adds to the chain: the one that it hands out, or that is found under
    the id in the proof that it hands out. -/
def adds (l : Ledger) : Action → List Entry
  | .propose now suffix kind content level =>
    match l.propose now suffix kind content level with
    | .ok (e, _) => [e]
    | .error _ => []
  | .promoteToRoot now suffix entry =>
    match l.promoteToRoot now suffix entry with
    | .ok (some e, _) => [e]
    | _ => []
  | .anchor now suffix s =>
    match l.anchor now suffix s with
    | .ok (.proposed e, _) => [e]
    | .ok (.doubleSpend _ alert, _) => [alert]
    | .error _ => []
  | .anchorConservation now proofSuffix entrySuffix balances expected =>
    match l.anchorConservation now proofSuffix entrySuffix balances expected with
    | .ok (proof, l') => (l'.chain.entry? proof.entryId).toList
    | .error _ => []
  | .anchorDischarge now adpSuffix entrySuffix grantId discharged remaining evidenceDigest =>
    match l.anchorDischarge now adpSuffix entrySuffix grantId discharged remaining
        evidenceDigest with
    | .ok (proof, l') => (l'.chain.entry? proof.entryId).toList
    | .error _ => []
  | _ => []

/-- The entries that a run adds to the chain, in order. -/
def additions (l : Ledger) (as : List Action) : List Entry := Run.chronicle act adds l as

variable {l : Ledger}

/-- A valid payload is proposed. -/
private theorem proposes_plain {c : Chain} {payload : Payload} {kind : EntryKind}
    (hkind : payload.kind = kind) (hvalid : payload.validate = .ok ()) (now : Instant)
    (suffix : String) (level : Level) :
    c.proposes (.propose now suffix kind (.plain payload) level) =
      [c.draft now suffix kind (.plain payload) level] := by
  have hadmit : Content.admit (.plain payload) kind = .ok () := hkind ▸ Content.admit_plain hvalid
  rw [Chain.proposes, Chain.propose_of_admit now suffix level hadmit]

/-- What an operation hands out is what it has added to the chain. -/
theorem adds_eq_proposes (l : Ledger) (a : Action) : l.adds a = l.proposes a := by
  cases a with
  | propose now suffix kind content level =>
    simp only [adds, proposes, onChain, propose, Chain.proposals_cons, Chain.proposals_nil,
      Chain.proposes]
    cases l.chain.propose now suffix kind content level <;> rfl
  | promoteToRoot now suffix entry =>
    simp only [adds, proposes, onChain, promoteToRoot, Tiers.promoteToRoot]
    cases l.tiers.stem.find? (·.id == entry) with
    | none => rfl
    | some e =>
      simp only [Chain.proposals_cons, Chain.proposals_nil, Chain.proposes]
      cases l.chain.propose now.entry suffix e.kind e.content .root <;> rfl
  | anchor now suffix s =>
    have houtcome := l.anchor_outcome now suffix s
    simp only [adds, proposes, onChain]
    generalize l.anchor now suffix s = outcome at houtcome ⊢
    cases houtcome with
    | invalid => rfl
    | repeated => rfl
    | @refused transfer hvalid hfirst =>
      have hp := validate_alertPayload hvalid (List.mem_of_find?_eq_some hfirst)
      have hkind : (Register.alertPayload s transfer).kind = .doubleSpendAlert := rfl
      rw [Chain.proposals_cons, Chain.proposals_nil, proposes_plain hkind hp]
      rfl
    | anchored hvalid =>
      have hp : (Payload.bilateralSettlement s).validate = .ok () := hvalid
      have hkind : (Payload.bilateralSettlement s).kind = .bilateralSettlement := rfl
      rw [Chain.proposals_cons, Chain.proposals_recordSettlement, proposes_plain hkind hp]
      rfl
  | anchorConservation now proofSuffix entrySuffix balances expected =>
    simp only [adds, proposes, onChain]
    cases h : l.anchorConservation now proofSuffix entrySuffix balances expected with
    | error err => rfl
    | ok r =>
      obtain ⟨proof, l'⟩ := r
      obtain ⟨hvalid, hid, rfl⟩ := anchorConservation_eq_ok h
      have hkind : proof.payload.kind = .conservationProof := rfl
      rw [Chain.proposals_cons, Chain.proposals_nil, proposes_plain hkind hvalid]
      show (Chain.entry? _ proof.entryId).toList = _
      rw [hid]
      exact congrArg Option.toList (Chain.entry?_push l.chain _)
  | anchorDischarge now adpSuffix entrySuffix grantId discharged remaining evidenceDigest =>
    simp only [adds, proposes, onChain]
    cases h : l.anchorDischarge now adpSuffix entrySuffix grantId discharged remaining
        evidenceDigest with
    | error err => rfl
    | ok r =>
      obtain ⟨proof, l'⟩ := r
      obtain ⟨hvalid, hid, rfl⟩ := anchorDischarge_eq_ok h
      have hkind : proof.payload.kind = .adpDischarge := rfl
      rw [Chain.proposals_cons, Chain.proposals_nil, proposes_plain hkind hvalid]
      show (Chain.entry? _ proof.entryId).toList = _
      rw [hid]
      exact congrArg Option.toList (Chain.entry?_push l.chain _)
  | voteAndFinalize now entry witness accept =>
    simp only [adds, proposes, onChain]
    split <;> rfl
  | _ => rfl

theorem additions_eq_proposals (l : Ledger) (as : List Action) :
    l.additions as = l.proposals as := by
  have hnotes : adds = proposes := funext fun l => funext fun a => l.adds_eq_proposes a
  rw [proposals_eq, additions, hnotes]

theorem latestEntryHash_run (l : Ledger) (as : List Action) :
    (l.run as).chain.latestEntryHash = Entry.headHash l.chain.latestEntryHash (l.proposals as) := by
  rw [chain_run]
  exact Chain.latestEntryHash_run l.chain _

theorem proposals_append (l : Ledger) (as bs : List Action) :
    l.proposals (as ++ bs) = l.proposals as ++ (l.run as).proposals bs := by
  rw [proposals_eq, proposals_eq, proposals_eq]
  exact Run.chronicle_append l as bs

variable {panel : Panel} {rule : ForkRule} {capacity significance : Nat} {scope : SortedSet}
  {as bs : List Action}

/-- What a run has proposed is found in every later chain, as what has become of it. -/
theorem exists_stored
    (h : ((new panel rule capacity significance scope).suffixes (as ++ bs)).Nodup) :
    let l := new panel rule capacity significance scope
    ∃ stored,
      List.Forall₂ (fun e x => (l.run (as ++ bs)).chain.entry? e.id = some x ∧ e.Progress x)
        (l.proposals as) stored := by
  intro l
  have htraced := traced_run panel rule capacity significance scope (as ++ bs) h
  have hall := htraced.entries
  rw [proposals_append] at hall
  have hpart := List.forall₂_take_append _ _ _ hall.flip
  have hfound : ∀ x ∈ (l.run (as ++ bs)).chain.entries.take (l.proposals as).length,
      (l.run (as ++ bs)).chain.entry? x.id = some x := fun x hx =>
    (Chain.entry?_eq_some_iff htraced.consistent.distinct).2 ⟨List.mem_of_mem_take hx, rfl⟩
  refine ⟨_, ((List.forall₂_and_left _ _).2 ⟨hfound, hpart⟩).flip.imp ?_⟩
  rintro e x ⟨hx, hprogress⟩
  exact ⟨hprogress.id_eq ▸ hx, hprogress⟩

/-- Take the entries that a run of a new ledger, in which no suffix is taken twice, has added by
    some moment: one chain of links, from the genesis digest on, that nothing later breaks.  At
    any later moment each of these entries is found under its id, its links and the hash of its
    content are the ones that it was added with, and the hash that the next proposal of that
    moment links to is the last of them. -/
theorem linkage_run (panel : Panel) (rule : ForkRule) (capacity significance : Nat)
    (scope : SortedSet) (as bs : List Action)
    (h : ((new panel rule capacity significance scope).suffixes (as ++ bs)).Nodup) :
    let l := new panel rule capacity significance scope
    ∃ stored,
      List.Forall₂ (fun e x => (l.run (as ++ bs)).chain.entry? e.id = some x ∧ e.Progress x)
        (l.additions as) stored ∧
      Entry.LinkedFrom Chain.genesis stored ∧
      (∀ x ∈ stored,
        x.contentHash = Digest.tagged Digest.contentTag (Text.bytes x.content.canonical)) ∧
      (l.run as).chain.latestEntryHash = Entry.headHash Chain.genesis stored := by
  intro l
  obtain ⟨stored, hstored⟩ := exists_stored h
  have hprogress : List.Forall₂ Entry.Progress (l.proposals as) stored :=
    hstored.imp fun _ _ hx => hx.2
  have hlinked : Entry.LinkedFrom Chain.genesis (l.proposals as) :=
    Chain.linkedFrom_proposals l.chain (l.chainRun as)
  refine ⟨stored, ?_, hlinked.of_progress hprogress, fun x hx => ?_, ?_⟩
  · rw [additions_eq_proposals]
    exact hstored
  · obtain ⟨e, he, hex⟩ := exists_of_forall₂ hprogress hx
    rw [hex.contentHash_eq, hex.content_eq]
    exact Chain.contentHash_of_mem_proposals he
  · rw [latestEntryHash_run, Entry.headHash_of_progress hprogress]
    rfl

/-- Each of the five operations adds an entry, and one of them adds an alert instead; a vote and a
    refused call come in between. -/
def mixedRun : List Action :=
  let statement (id : String) := (Statement.blank id "lct:a" "lct:b").withTransfers ["t1"]
  let credential := Content.plain (.credentialIssuance ⟨"lct:a", "lct:b", "member"⟩)
  [ .propose .epoch "x1" .credentialIssuance credential .root,
    .anchor .epoch "x2" (statement "stmt:1"),
    .submitVote .epoch "act:bilateral_settlement:x2" "w1" true none,
    .anchor .epoch "x3" (statement "stmt:2"),
    .anchor .epoch "x4" (statement ""),
    .ingest .epoch "x5" .bilateralSettlement (.plain (.bilateralSettlement (statement "stmt:3"))),
    .promoteToRoot .epoch "x6" "fc:bilateral_settlement:x5",
    .anchorConservation .epoch "p1" "x7" .empty .zero,
    .anchorDischarge .epoch "d1" "x8" "grant:1" .zero .zero "digest" ]

/-- The run goes on with the acceptance and the sealing of its first entry. -/
theorem linkage_mixedRun :
    let l := new Chain.trio .lowestEntryId 10 5 .empty
    let first := "act:credential_issuance:x1"
    let later := [.voteAndFinalize .epoch first "w1" true, .voteAndFinalize .epoch first "w2" true,
      .sealBlock .epoch]
    (l.suffixes (mixedRun ++ later)).Nodup ∧
      (l.additions mixedRun).map (·.id) =
        [first, "act:bilateral_settlement:x2", "act:double_spend_alert:x3",
          "act:bilateral_settlement:x6", "act:conservation_proof:x7", "act:adp_discharge:x8"] ∧
      ∃ stored,
        List.Forall₂
          (fun e x => (l.run (mixedRun ++ later)).chain.entry? e.id = some x ∧ e.Progress x)
          (l.additions mixedRun) stored ∧
        Entry.LinkedFrom Chain.genesis stored ∧
        (∀ x ∈ stored,
          x.contentHash = Digest.tagged Digest.contentTag (Text.bytes x.content.canonical)) ∧
        (l.run mixedRun).chain.latestEntryHash = Entry.headHash Chain.genesis stored := by
  intro l first later
  have h : (l.suffixes (mixedRun ++ later)).Nodup := by decide +kernel
  have hids : (l.additions mixedRun).map (·.id) =
      [first, "act:bilateral_settlement:x2", "act:double_spend_alert:x3",
        "act:bilateral_settlement:x6", "act:conservation_proof:x7", "act:adp_discharge:x8"] := by
    decide +kernel
  exact ⟨h, hids, linkage_run Chain.trio .lowestEntryId 10 5 .empty mixedRun later h⟩

end WitnessLedger.Ledger
