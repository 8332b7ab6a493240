import WitnessLedger.Proofs.Chain.Reachable

/-!
# Links between proposals

A chain links each proposal to the content of the proposal before it, and it does so at the moment
of the proposal: the link of an entry never changes, and nothing but a proposal moves the hash that
the next link is made of.  The entries of a chain are therefore linked from the genesis digest on,
in the order of proposal, whatever has been voted, accepted, rejected or sealed in between.

## Key results

- `Entry.linkedFrom_append`: linked entries in two parts
- `Entry.LinkedFrom.prevHashes_eq`: the links are the content hashes, one place later
- `Entry.LinkedFrom.of_progress`: links survive whatever happens to the entries
- `linkedFrom_proposals`, `latestEntryHash_run`: what any run proposes is linked, and its last
  content hash is the hash that the next proposal links to
-/

namespace WitnessLedger

namespace Entry

/-- The content hash of the last of some entries, or a digest before all of them. -/
def headHash (before : Digest) (es : List Entry) : Digest :=
  (es.getLast?.map (·.contentHash)).getD before

/-- Whether entries are linked: the first one to a digest before all, and each other one to the
    content hash of the entry before it. -/
def LinkedFrom (before : Digest) : List Entry → Prop
  | [] => True
  | e :: es => e.prevHash = before ∧ LinkedFrom e.contentHash es

variable {before : Digest}

@[simp] theorem headHash_nil (before : Digest) : headHash before [] = before := rfl

/-- Behind a first entry, the content hash of that entry takes the place of what was before it. -/
theorem headHash_cons (before : Digest) (e : Entry) (es : List Entry) :
    headHash before (e :: es) = headHash e.contentHash es := by
  rw [headHash, headHash, List.getLast?_cons]
  cases es.getLast? <;> rfl

theorem headHash_append (before : Digest) (es es' : List Entry) :
    headHash before (es ++ es') = headHash (headHash before es) es' := by
  induction es generalizing before with
  | nil => rfl
  | cons e es ih => rw [List.cons_append, headHash_cons, headHash_cons, ih]

/-- Linked entries in two parts: the second part starts from where the first one ends. -/
theorem linkedFrom_append {es es' : List Entry} :
    LinkedFrom before (es ++ es') ↔
      LinkedFrom before es ∧ LinkedFrom (headHash before es) es' := by
  induction es generalizing before with
  | nil => exact (and_iff_right trivial).symm
  | cons e es ih => rw [List.cons_append, LinkedFrom, LinkedFrom, ih, headHash_cons, and_assoc]

/-- The links of linked entries, and what the next one would link to, are their content hashes
    behind the digest before all. -/
theorem LinkedFrom.prevHashes_eq {es : List Entry} (h : LinkedFrom before es) :
    es.map (·.prevHash) ++ [headHash before es] = before :: es.map (·.contentHash) := by
  induction es generalizing before with
  | nil => rfl
  | cons e es ih =>
    rw [List.map_cons, List.cons_append, h.1, headHash_cons, ih h.2, List.map_cons]

/-- Entries that are what others have become have the same last content hash. -/
theorem headHash_of_progress {es es' : List Entry} (h : List.Forall₂ Progress es es') :
    headHash before es' = headHash before es := by
  induction h generalizing before with
  | nil => rfl
  | cons hprogress _ ih => rw [headHash_cons, headHash_cons, ih, hprogress.contentHash_eq]

/-- Links survive whatever happens to the entries. -/
theorem LinkedFrom.of_progress {es es' : List Entry} (h : List.Forall₂ Progress es es')
    (hlinked : LinkedFrom before es) : LinkedFrom before es' := by
  induction h generalizing before with
  | nil => trivial
  | cons hprogress _ ih =>
    obtain ⟨hprev, hrest⟩ := hlinked
    rw [← hprogress.contentHash_eq] at hrest
    exact ⟨by rw [hprogress.core, hprev], ih hrest⟩

end Entry

namespace Chain

variable {c c' : Chain} {a : Action}

/-- What an action proposes links to the last proposal, and to nothing else. -/
theorem linkedFrom_proposes (c : Chain) (a : Action) :
    Entry.LinkedFrom c.latestEntryHash (c.proposes a) := by
  cases hp : c.proposes a with
  | nil => trivial
  | cons x rest =>
    obtain ⟨now, suffix, kind, content, level, hvalid, rfl, rfl⟩ :=
      mem_proposes.1 (hp ▸ List.mem_cons_self ..)
    rw [proposes, propose_of_admit now suffix level hvalid] at hp
    rw [(List.cons.inj hp).2.symm]
    exact ⟨rfl, trivial⟩

/-- Only a proposal moves the hash that the next one links to. -/
theorem Effect.latestEntryHash_eq (h : Effect c a c') :
    c'.latestEntryHash = Entry.headHash c.latestEntryHash (c.proposes a) := by
  cases h with
  | idle _ hproposes => rw [hproposes, Entry.headHash_nil]
  | proposed hvalid =>
    rw [proposes, propose_of_admit _ _ _ hvalid]
    rfl
  | settled =>
    rw [recordSettlement_eq]
    rfl
  | _ => rfl

/-- The hash that the next proposal links to, after any run: the content hash of the last
    proposal. -/
theorem latestEntryHash_run (c : Chain) (as : List Action) :
    (c.run as).latestEntryHash = Entry.headHash c.latestEntryHash (c.proposals as) := by
  induction as using List.reverseRecOn with
  | nil => rfl
  | append_singleton as a ih =>
    rw [run_concat, (act_effect _ a).latestEntryHash_eq, ih, ← Entry.headHash_append, proposals,
      proposals, Run.chronicle_concat]
    rfl

/-- What any run proposes is linked. -/
theorem linkedFrom_proposals (c : Chain) (as : List Action) :
    Entry.LinkedFrom c.latestEntryHash (c.proposals as) := by
  induction as using List.reverseRecOn with
  | nil => trivial
  | append_singleton as a ih =>
    rw [proposals, Run.chronicle_concat, Entry.linkedFrom_append]
    refine ⟨ih, ?_⟩
    have hlink := linkedFrom_proposes (c.run as) a
    rwa [latestEntryHash_run] at hlink

/-- A proposal has the hash of its content. -/
theorem contentHash_of_mem_proposals {c : Chain} {as : List Action} {e : Entry}
    (h : e ∈ c.proposals as) : e.contentHash = e.content.hash := by
  obtain ⟨before, a, after, -, ha⟩ := Run.mem_chronicle.1 h
  obtain ⟨now, suffix, kind, content, level, -, -, rfl⟩ := mem_proposes.1 ha
  rfl

end Chain

end WitnessLedger
