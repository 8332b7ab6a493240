import WitnessLedger.Proofs.Chain.Commitment
import WitnessLedger.Proofs.Chain.Linkage
import WitnessLedger.Proofs.Content.Hash

/-!
# What the last proposal hash commits to

Unlike the hash of a block, which covers the link to the block before, the hash that a proposal is
linked by covers the content of the proposal and not its own link.  The last of these hashes
therefore fixes the last content and nothing before it: the links themselves have to be compared
as well.  With them, all contents are fixed.

## Key results

- `headsCommit_run`: what the last hashes of two runs, and their links, say about the runs
- `heads_eq_registering`: another first proposal does not change the last hash
-/

namespace WitnessLedger

namespace Chain

/-- The canonical texts of what some entries say. -/
def texts (es : List Entry) : List String := (es.map (·.content)).map Content.canonical

/-- The strings that are hashed for the links of proposals: the one that the links start from, and
    one for each content. -/
def hashedForLinks (es : List Entry) : List (List UInt8) :=
  genesisBytes :: (texts es).map Content.textBytes

/-- What the last hashes of two chains, and the links of what was proposed to them, say of it. -/
structure HeadsCommit (c c' : Chain) (es es' : List Entry) : Prop where
  /-- The last hash is that of the last content. -/
  head_iff : c.latestEntryHash = c'.latestEntryHash ↔
    es.getLast?.map (·.contentHash) = es'.getLast?.map (·.contentHash)
  /-- It fixes the last content. -/
  last_text : c.latestEntryHash = c'.latestEntryHash →
    (texts es).getLast? = (texts es').getLast? ∨
      Digest.Collide (hashedForLinks es) (hashedForLinks es')
  /-- To fix the hashes of all contents takes the links as well. -/
  hashes_iff : es.map (·.contentHash) = es'.map (·.contentHash) ↔
    c.latestEntryHash = c'.latestEntryHash ∧ es.map (·.prevHash) = es'.map (·.prevHash)
  /-- These hashes fix all contents. -/
  texts_eq : es.map (·.contentHash) = es'.map (·.contentHash) →
    texts es = texts es' ∨ Digest.Collide (hashedForLinks es) (hashedForLinks es')

variable {c c' : Chain} {es es' : List Entry}

theorem map_contentHash (h : ∀ e ∈ es, e.contentHash = e.content.hash) :
    es.map (·.contentHash) = (es.map (·.content)).map Content.hash := by
  rw [List.map_map]
  exact List.map_congr_left h

theorem textBytes_mem_hashedForLinks {e : Entry} (he : e ∈ es) :
    Content.textBytes e.content.canonical ∈ hashedForLinks es :=
  List.mem_cons_of_mem _
    (List.mem_map_of_mem (List.mem_map_of_mem (List.mem_map_of_mem he)))

/-- Last contents with the same hash have the same canonical text, or the two strings that were
    hashed for them collide. -/
theorem lastText_eq_or_collide (hhash : ∀ e ∈ es, e.contentHash = e.content.hash)
    (hhash' : ∀ e ∈ es', e.contentHash = e.content.hash)
    (h : es.getLast?.map (·.contentHash) = es'.getLast?.map (·.contentHash)) :
    (texts es).getLast? = (texts es').getLast? ∨
      Digest.Collide (hashedForLinks es) (hashedForLinks es') := by
  rw [texts, texts, List.getLast?_map, List.getLast?_map, List.getLast?_map, List.getLast?_map]
  cases hlast : es.getLast? with
  | none =>
    rw [hlast, Option.map_none, eq_comm, Option.map_eq_none_iff] at h
    exact .inl (by rw [h])
  | some e =>
    rw [hlast, Option.map_some, eq_comm, Option.map_eq_some_iff] at h
    obtain ⟨e', hlast', heq⟩ := h
    have he := List.mem_of_getLast? hlast
    have he' := List.mem_of_getLast? hlast'
    rw [hhash' e' he', hhash e he, Content.hash_eq, Content.hash_eq] at heq
    refine (Digest.eq_or_collide heq.symm (textBytes_mem_hashedForLinks he)
      (textBytes_mem_hashedForLinks he')).imp_left fun hbytes => ?_
    rw [hlast', Option.map_some, Option.map_some, Option.map_some, Option.map_some,
      Content.textBytes_injective hbytes]

/-- Entries that are linked from the genesis digest to the last hash of their chain commit to
    their contents in this way. -/
theorem headsCommit (hlinked : Entry.LinkedFrom genesis es) (hlinked' : Entry.LinkedFrom genesis es')
    (hhash : ∀ e ∈ es, e.contentHash = e.content.hash)
    (hhash' : ∀ e ∈ es', e.contentHash = e.content.hash)
    (hhead : c.latestEntryHash = Entry.headHash genesis es)
    (hhead' : c'.latestEntryHash = Entry.headHash genesis es')
    (hcount : es.length = es'.length) : HeadsCommit c c' es es' := by
  -- the last hashes are those of the last contents, since neither list goes on alone
  have hiff : c.latestEntryHash = c'.latestEntryHash ↔
      es.getLast?.map (·.contentHash) = es'.getLast?.map (·.contentHash) := by
    rw [hhead, hhead', Entry.headHash, Entry.headHash]
    cases hlast : es.getLast? with
    | none =>
      have hnil : es' = [] := by
        rw [List.getLast?_eq_none_iff.1 hlast] at hcount
        exact List.eq_nil_of_length_eq_zero hcount.symm
      simp [hnil]
    | some e =>
      have hsome : es' ≠ [] := by
        rintro rfl
        rw [List.eq_nil_of_length_eq_zero hcount] at hlast
        cases hlast
      simp [List.getLast?_eq_some_getLast hsome]
  constructor
  case head_iff => exact hiff
  case last_text =>
    intro h
    exact lastText_eq_or_collide hhash hhash' (hiff.1 h)
  case hashes_iff =>
    have hprevs := hlinked.prevHashes_eq
    have hprevs' := hlinked'.prevHashes_eq
    rw [← hhead] at hprevs
    rw [← hhead'] at hprevs'
    constructor
    · intro h
      rw [h, ← hprevs'] at hprevs
      obtain ⟨hlinks, hheads⟩ := List.append_inj' hprevs rfl
      exact ⟨(List.cons.inj hheads).1, hlinks⟩
    · rintro ⟨hheads, hlinks⟩
      rw [hheads, hlinks, hprevs'] at hprevs
      exact (List.cons.inj hprevs).2.symm
  case texts_eq =>
    intro h
    rw [map_contentHash hhash, map_contentHash hhash'] at h
    refine (Content.canonicals_eq_or_collide h).imp_right fun hcollide => ?_
    exact hcollide.mono (List.subset_cons_self ..) (List.subset_cons_self ..)

/-- Take the chains of any two runs, with any panels, to which equally many entries have been
    proposed.  Their last hashes are the same exactly if the last proposals have the same content
    hash, whatever was proposed before.  The hashes of all contents are the same exactly if the
    last hashes are the same and all links.  And contents with the same hashes have the same
    canonical text, or a string that was hashed for the one run and a different one that was
    hashed for the other have the same digest. -/
theorem headsCommit_run (panel panel' : Panel) (rule rule' : ForkRule) (as as' : List Action)
    (hcount : (proposals (new panel rule) as).length = (proposals (new panel' rule') as').length) :
    HeadsCommit ((new panel rule).run as) ((new panel' rule').run as')
      (proposals (new panel rule) as) (proposals (new panel' rule') as') :=
  headsCommit (linkedFrom_proposals (new panel rule) as)
    (linkedFrom_proposals (new panel' rule') as')
    (fun _ he => contentHash_of_mem_proposals he) (fun _ he => contentHash_of_mem_proposals he)
    (latestEntryHash_run _ as) (latestEntryHash_run _ as') hcount

/-- An entity joins a society. -/
def registration (entity : String) : Content := .plain (.lctRegistration ⟨entity, "lct:s"⟩)

/-- Two entities join, one after the other. -/
def registering (first second : String) : List Action :=
  [ .propose .epoch "x1" .lctRegistration (registration first) .root,
    .propose .epoch "x2" .lctRegistration (registration second) .root ]

/-- One entity or another joins before a third one. -/
theorem headsCommit_registering :
    let c := new trio .lowestEntryId
    let joined := registering "lct:a" "lct:b"
    let joined' := registering "lct:x" "lct:b"
    (proposals c joined).length = (proposals c joined').length ∧
      HeadsCommit (c.run joined) (c.run joined') (proposals c joined) (proposals c joined') := by
  intro c joined joined'
  have hcount : (proposals c joined).length = (proposals c joined').length := by decide +kernel
  exact ⟨hcount, headsCommit_run trio trio .lowestEntryId .lowestEntryId joined joined' hcount⟩

/-- The last hash does not tell who joined first, although no two of the strings that were hashed
    for the two runs have the same digest. -/
theorem heads_eq_registering :
    let c := new trio .lowestEntryId
    let joined := registering "lct:a" "lct:b"
    let joined' := registering "lct:x" "lct:b"
    let hashed := hashedForLinks (proposals c joined) ++ hashedForLinks (proposals c joined')
    (proposals c joined).length = (proposals c joined').length ∧
      (c.run joined).latestEntryHash = (c.run joined').latestEntryHash ∧
      (proposals c joined).map (·.contentHash) ≠ (proposals c joined').map (·.contentHash) ∧
      ¬ Digest.Collide hashed hashed := by
  intro c joined joined' hashed
  have hjoined : (proposals c joined).map (·.content) =
      [registration "lct:a", registration "lct:b"] := by
    decide +kernel
  have hjoined' : (proposals c joined').map (·.content) =
      [registration "lct:x", registration "lct:b"] := by
    decide +kernel
  -- the only long computation: the strings that are hashed have different digests
  let strings := [Content.textBytes (registration "lct:a").canonical,
    Content.textBytes (registration "lct:x").canonical,
    Content.textBytes (registration "lct:b").canonical, genesisBytes]
  have hdigests : (strings.map Digest.sha256).Nodup := by decide +kernel
  have hhashes : (proposals c joined).map (·.contentHash) =
      [(registration "lct:a").hash, (registration "lct:b").hash] := by
    rw [map_contentHash fun _ he => contentHash_of_mem_proposals he, hjoined, List.map_cons,
      List.map_singleton]
  have hhashes' : (proposals c joined').map (·.contentHash) =
      [(registration "lct:x").hash, (registration "lct:b").hash] := by
    rw [map_contentHash fun _ he => contentHash_of_mem_proposals he, hjoined', List.map_cons,
      List.map_singleton]
  refine ⟨?_, ?_, ?_, ?_⟩
  · decide +kernel
  · rw [latestEntryHash_run, latestEntryHash_run, Entry.headHash, Entry.headHash,
      ← List.getLast?_map, ← List.getLast?_map, hhashes, hhashes', List.getLast?_cons_cons,
      List.getLast?_cons_cons]
  · rw [hhashes, hhashes', Content.hash_eq, Content.hash_eq]
    intro h
    exact (List.nodup_cons.1 hdigests).1 (List.mem_cons.2 (.inl (List.cons.inj h).1))
  · have hfirst : hashedForLinks (proposals c joined) ⊆ strings := by
      rw [hashedForLinks, texts, hjoined]
      simp [strings]
    have hsecond : hashedForLinks (proposals c joined') ⊆ strings := by
      rw [hashedForLinks, texts, hjoined']
      simp [strings]
    have hsubset : hashed ⊆ strings := List.append_subset.2 ⟨hfirst, hsecond⟩
    exact Digest.not_collide hdigests hsubset hsubset

end Chain

end WitnessLedger
