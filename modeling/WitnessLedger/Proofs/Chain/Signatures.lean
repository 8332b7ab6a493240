import WitnessLedger.Proofs.Chain.Votes
import WitnessLedger.Proofs.Digest.Collision
import WitnessLedger.Proofs.Text.Split
import WitnessLedger.Proofs.Time.Signed

/-!
# Signatures of votes

The text that a vote signs names the witness, the entry, the decision and the moment, with colons
between them and with colons in three of them.  It is still read in only one way, from the right:
the moment has three colons and the decision none, the id of an entry has two, and whatever stands
in front of these is the witness.  So two recorded votes with the same signature say the same, or
their texts collide.

## Key results

- `Vote.signedText_inj`: the signed text gives away all that it names
- `Chain.exists_suffix_run`: every entry of every run has an id that was made for it
- `Chain.signatures_run`: the signature of a recorded vote identifies what was voted
-/

namespace WitnessLedger

namespace Vote

/-- The signed text as characters. -/
theorem toList_signedText (witness entry : String) (accept : Bool) (timestamp : Instant) :
    (signedText witness entry accept timestamp).toList =
      witness.toList ++ ':' :: (entry.toList ++ ':' ::
        ((if accept then "true" else "false").toList ++ ':' :: timestamp.signedCharacters)) := by
  simp [signedText, Instant.signedText]

/-- The signed text gives away all that it names, where the ids have the same number of colons. -/
theorem signedText_inj {witness witness' entry entry' : String} {accept accept' : Bool}
    {timestamp timestamp' : Instant}
    (h : signedText witness entry accept timestamp =
      signedText witness' entry' accept' timestamp')
    (hcount : entry.toList.count ':' = entry'.toList.count ':') :
    witness = witness' ∧ entry = entry' ∧ accept = accept' ∧ timestamp = timestamp' := by
  have hdecision : ∀ b : Bool, ':' ∉ (if b then "true" else "false" : String).toList := by decide
  have hnone : ∀ b : Bool, (if b then "true" else "false" : String).toList.count ':' = 0 :=
    fun b => List.count_eq_zero.2 (hdecision b)
  have hchars := congrArg String.toList h
  rw [toList_signedText, toList_signedText] at hchars
  obtain ⟨hwitness, hchars⟩ := Text.append_inj_of_count hchars (by
    simp only [List.count_append, List.count_cons_self, hcount, hnone,
      Instant.count_colon_signedCharacters])
  obtain ⟨hentry, hchars⟩ := Text.append_inj_of_count hchars (by
    simp only [List.count_append, List.count_cons_self, hnone,
      Instant.count_colon_signedCharacters])
  obtain ⟨haccept, hmoment⟩ := Text.append_cons_inj (hdecision accept) (hdecision accept') hchars
  refine ⟨String.toList_inj.1 hwitness, String.toList_inj.1 hentry, ?_, ?_⟩
  · revert haccept
    cases accept <;> cases accept' <;> decide
  · exact Instant.signedText_inj (congrArg String.ofList hmoment)

end Vote

/-- An id that is made here has two colons, where its suffix has none. -/
theorem Entry.count_colon_proposedId (kind : EntryKind) {suffix : String}
    (h : ':' ∉ suffix.toList) : (proposedId kind suffix).toList.count ':' = 2 := by
  have hname : kind.name.toList.count ':' = 0 := List.count_eq_zero.2 kind.colon_notMem_name
  have hsuffix : suffix.toList.count ':' = 0 := List.count_eq_zero.2 h
  simp [proposedId, List.count_append, hname, hsuffix]

namespace Chain

/-- The vote that an action records. -/
def casts (c : Chain) : Action → List Vote
  | .submitVote now entry witness accept reason =>
    match c.submitVote now entry witness accept reason with
    | .ok (vote, _) => [vote]
    | .error _ => []
  | _ => []

/-- The votes that a run records, in the order in which they are cast. -/
def ballots (c : Chain) (as : List Action) : List Vote := Run.chronicle act casts c as

variable {panel panel' : Panel} {rule rule' : ForkRule} {as as' : List Action}

/-- Every entry of every run has an id that was made with a suffix of the run. -/
theorem exists_suffix_run (as : List Action) :
    ∀ e ∈ ((new panel rule).run as).entries, ∃ kind, ∃ suffix ∈ suffixes (new panel rule) as,
      e.id = Entry.proposedId kind suffix := by
  induction as using List.reverseRecOn with
  | nil => exact fun e he => absurd he List.not_mem_nil
  | append_singleton as a ih =>
    intro e' he'
    rw [suffixes, Run.chronicle_concat]
    rw [run_concat] at he'
    rcases (act_effect _ a).exists_step (distinctIds_run panel rule as) e' he' with h | ⟨e, he, hs⟩
    · obtain ⟨suffix, hsuffix, hid⟩ := exists_draws_of_mem_proposes h
      exact ⟨e'.kind, suffix, List.mem_append_right _ hsuffix, hid⟩
    · obtain ⟨kind, suffix, hsuffix, hid⟩ := ih e he
      refine ⟨kind, suffix, List.mem_append_left _ hsuffix, ?_⟩
      rw [hs.progress.id_eq, hid]

/-- A recorded vote is signed, and names an entry whose id was made in the run. -/
theorem signed_of_mem_ballots {v : Vote} (hv : v ∈ ballots (new panel rule) as) :
    v.signature = Vote.sign v.witness v.entry v.accept v.timestamp ∧
      ∃ kind, ∃ suffix ∈ suffixes (new panel rule) as, v.entry = Entry.proposedId kind suffix := by
  obtain ⟨before, a, after, rfl, hcast⟩ := Run.mem_chronicle.1 hv
  cases a with
  | submitVote now id witness accept reason =>
    cases hsubmit : (before.foldl act (new panel rule)).submitVote now id witness accept reason with
    | error err => simp [casts, hsubmit] at hcast
    | ok answer =>
      obtain ⟨e, he, -, -, -, hvote, -⟩ := submitVote_eq_ok_iff.1 hsubmit
      have hv : v = Vote.cast witness id accept reason now := by
        rw [← hvote]
        simpa [casts, hsubmit] using hcast
      obtain ⟨hmem, hid⟩ := of_entry?_eq_some he
      obtain ⟨kind, suffix, hsuffix, hmade⟩ := exists_suffix_run before e hmem
      rw [hv]
      refine ⟨rfl, kind, suffix, ?_, hid.symm.trans hmade⟩
      rw [suffixes, Run.chronicle_append]
      exact List.mem_append_left _ hsuffix
  | _ => cases hcast

/-- Two votes that were recorded in any runs, with suffixes without colons, and have the same
    signature are by the same witness on the same entry, with the same decision at the same moment,
    or the texts that were signed are different and have the same digest.  Nothing is asked of the
    ids of witnesses. -/
theorem signatures_run (panel panel' : Panel) (rule rule' : ForkRule) (as as' : List Action)
    (hsuffixes : ∀ s ∈ suffixes (new panel rule) as, ':' ∉ s.toList)
    (hsuffixes' : ∀ s ∈ suffixes (new panel' rule') as', ':' ∉ s.toList)
    (v v' : Vote) (hv : v ∈ ballots (new panel rule) as) (hv' : v' ∈ ballots (new panel' rule') as')
    (h : v.signature = v'.signature) :
    (v.witness = v'.witness ∧ v.entry = v'.entry ∧ v.accept = v'.accept ∧
        v.timestamp = v'.timestamp) ∨
      Digest.Collide [Text.bytes (Vote.signedText v.witness v.entry v.accept v.timestamp)]
        [Text.bytes (Vote.signedText v'.witness v'.entry v'.accept v'.timestamp)] := by
  obtain ⟨hsigned, kind, suffix, hsuffix, hid⟩ := signed_of_mem_ballots hv
  obtain ⟨hsigned', kind', suffix', hsuffix', hid'⟩ := signed_of_mem_ballots hv'
  rw [hsigned, hsigned'] at h
  refine (Digest.eq_or_collide h (List.mem_singleton_self _) (List.mem_singleton_self _)).imp_left
    fun hbytes => ?_
  apply Vote.signedText_inj (Text.bytes_inj.1 hbytes)
  rw [hid, hid', Entry.count_colon_proposedId kind (hsuffixes suffix hsuffix),
    Entry.count_colon_proposedId kind' (hsuffixes' suffix' hsuffix')]

/-- One witness, whose id has colons. -/
def soloist : Panel where
  nodes := ["lct:w1:true"]
  threshold := .ratio 1 1
  nodes_ne_nil := List.cons_ne_nil _ _
  nodup_nodes := List.nodup_singleton _
  inRange := by decide +kernel

/-- A credential is proposed and accepted, with a reason or without one. -/
def signingRun (reason : Option String) : List Action :=
  let credential := Content.plain (.credentialIssuance ⟨"lct:a", "lct:b", "member"⟩)
  [ .propose .epoch "x1" .credentialIssuance credential .root,
    .submitVote .epoch "act:credential_issuance:x1" "lct:w1:true" true reason ]

/-- Two votes that differ in the reason, which is not signed, have the same signature. -/
theorem signatures_signingRun :
    let c := new soloist .lowestEntryId
    let vote (reason : Option String) :=
      Vote.cast "lct:w1:true" "act:credential_issuance:x1" true reason .epoch
    let v := vote none
    let v' := vote (some "seen")
    (∀ s ∈ suffixes c (signingRun none), ':' ∉ s.toList) ∧
      (∀ s ∈ suffixes c (signingRun (some "seen")), ':' ∉ s.toList) ∧
      v ∈ ballots c (signingRun none) ∧ v' ∈ ballots c (signingRun (some "seen")) ∧ v ≠ v' ∧
      v.signature = v'.signature ∧
      ((v.witness = v'.witness ∧ v.entry = v'.entry ∧ v.accept = v'.accept ∧
          v.timestamp = v'.timestamp) ∨
        Digest.Collide [Text.bytes (Vote.signedText v.witness v.entry v.accept v.timestamp)]
          [Text.bytes (Vote.signedText v'.witness v'.entry v'.accept v'.timestamp)]) := by
  intro c vote v v'
  have hsuffixes : ∀ s ∈ suffixes c (signingRun none), ':' ∉ s.toList := by decide +kernel
  have hsuffixes' : ∀ s ∈ suffixes c (signingRun (some "seen")), ':' ∉ s.toList := by
    decide +kernel
  have hv : v ∈ ballots c (signingRun none) := by decide +kernel
  have hv' : v' ∈ ballots c (signingRun (some "seen")) := by decide +kernel
  exact ⟨hsuffixes, hsuffixes', hv, hv', by decide +kernel, rfl,
    signatures_run soloist soloist .lowestEntryId .lowestEntryId _ _ hsuffixes hsuffixes' v v' hv
      hv' rfl⟩

end Chain

end WitnessLedger
