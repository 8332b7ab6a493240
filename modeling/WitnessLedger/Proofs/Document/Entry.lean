import WitnessLedger.Document.Entry
import WitnessLedger.Proofs.Document.Content

/-!
# Entries and blocks read back

A block is kept as one document, with its entries, their votes and proofs and the signatures inside.
Where its times lie in the years of four digits, its numbers have 64 bits and the scores of its
contents are finite, all of it is read back, and the contents as `Content.unsigned` says.

## Key results

- `Entry.Storable`, `Block.Storable`: what can be kept
- `Entry.reloadsAs`, `Block.reloadsAs`: what is read back
- `Block.unsigned_eq_self_iff`: when this is the same block
-/

namespace WitnessLedger

open Document

/-! ## Names -/

namespace Document.ReloadsAs

/-- A value that is written as its name is read by this name. -/
theorem named {α : Type} [Document α] {x : α} {name : String} (htoJson : toJson x = .string name)
    (hname : ofJson? (α := α) (.string name) = some x) : ReloadsAs x x := by
  refine ⟨?_, ?_⟩ <;> rw [htoJson]
  · trivial
  · exact hname

theorem kind (k : EntryKind) : ReloadsAs k k := named rfl k.ofName?_name

theorem level (l : Level) : ReloadsAs l l := named rfl l.ofName?_name

theorem phase (p : Phase) : ReloadsAs p p := named rfl p.ofName?_name

end Document.ReloadsAs

open ReloadsAs

/-! ## Proofs and votes -/

theorem Merkle.Side.ofName?_name (s : Merkle.Side) : ofName? s.name = some s := by
  cases s <;> rfl

theorem Merkle.Step.reloadsAs (s : Merkle.Step) : ReloadsAs s s := by
  have hsibling := digest s.sibling
  refine .of_members rfl (by simp) ⟨hsibling.wellFormed, trivial, trivial⟩
    fun f ⟨siblingPart, sidePart, _⟩ => ?_
  have hname : ((f.part? "side").bind Json.name?).bind Side.ofName? = some s.side := by
    rw [sidePart]
    exact s.side.ofName?_name
  show Merkle.Step.ofJson? _ = _
  rw [Merkle.Step.ofJson?, Fields.of?_bind, Fields.get_eq siblingPart hsibling, hname]
  rfl

theorem Merkle.Proof.reloadsAs {p : Merkle.Proof} (h : p.leafIndex < UInt64.size) :
    ReloadsAs p p := by
  have hindex := nat h
  have hleaf := digest p.leafHash
  have hpath : ReloadsAs p.path p.path := list (List.forall₂_same.2 fun s _ => s.reloadsAs)
  have hroot := digest p.root
  refine .of_members rfl (by simp)
    ⟨hindex.wellFormed, hleaf.wellFormed, hpath.wellFormed, hroot.wellFormed, trivial⟩
    fun f ⟨indexPart, leafPart, pathPart, rootPart, _⟩ => ?_
  show Merkle.Proof.ofJson? _ = _
  rw [Merkle.Proof.ofJson?, Fields.of?_bind, Fields.get_eq indexPart hindex,
    Fields.get_eq leafPart hleaf, Fields.get_eq pathPart hpath, Fields.get_eq rootPart hroot]
  rfl

theorem Vote.reloadsAs {v : Vote} (h : v.timestamp.InYears) : ReloadsAs v v := by
  have hsignature := digest v.signature
  have hreason := optionString v.reason
  have htime := instant h
  refine .of_members rfl (by simp)
    ⟨trivial, trivial, trivial, hsignature.wellFormed, hreason.wellFormed, htime.wellFormed,
      trivial⟩
    fun f ⟨witnessPart, entryPart, acceptPart, signaturePart, reasonPart, timePart, _⟩ => ?_
  show Vote.ofJson? _ = _
  rw [Vote.ofJson?, Fields.of?_bind, Fields.get_eq witnessPart (string _),
    Fields.get_eq entryPart (string _), Fields.get_eq acceptPart (bool _),
    Fields.get_eq signaturePart hsignature, Fields.optional_eq reasonPart hreason,
    Fields.get_eq timePart htime]
  rfl

/-! ## Entries -/

namespace Entry

/-- The entry without the signs of the zeros in its content. -/
def unsigned (e : Entry) : Entry := { e with content := e.content.unsigned }

/-- Whether an entry can be kept: its times are in years of four digits, its numbers have 64 bits
    and the score of its content is finite. -/
structure Storable (e : Entry) : Prop where
  timestamp : e.timestamp.InYears
  votes : ∀ v ∈ e.votes, v.timestamp.InYears
  score : ∀ x ∈ e.content.anomalyScore, x.isFinite = true
  place : ∀ p ∈ e.proof, p.leafIndex < UInt64.size
  blockHeight : ∀ n ∈ e.blockHeight, n < UInt64.size
  cost : e.cost < UInt64.size

theorem reloadsAs {e : Entry} (h : e.Storable) : ReloadsAs e e.unsigned := by
  have htime := instant h.timestamp
  have hcontent := Content.reloadsAs h.score
  have hprev := digest e.prevHash
  have hhash := digest e.contentHash
  have hvotes : ReloadsAs e.votes e.votes :=
    list (List.forall₂_same.2 fun v hv => Vote.reloadsAs (h.votes v hv))
  have hproof : ReloadsAs e.proof e.proof := by
    cases hp : e.proof with
    | none => exact absent
    | some p =>
      -- the document of a proof is an object and not null
      apply present (Merkle.Proof.reloadsAs (h.place p hp))
      intro hnull
      cases hnull
  have hheight := optionNat h.blockHeight
  have hcost := nat h.cost
  refine .of_members rfl (by simp)
    ⟨trivial, trivial, trivial, htime.wellFormed, hprev.wellFormed, hcontent.wellFormed,
      hhash.wellFormed, hvotes.wellFormed, hproof.wellFormed, hheight.wellFormed, trivial,
      hcost.wellFormed, trivial⟩
    fun f ⟨idPart, kindPart, levelPart, timePart, prevPart, contentPart, hashPart, votesPart,
      proofPart, heightPart, phasePart, costPart, _⟩ => ?_
  show Entry.ofJson? _ = _
  rw [Entry.ofJson?, Fields.of?_bind, Fields.get_eq idPart (string _),
    Fields.get_eq kindPart (ReloadsAs.kind _), Fields.get_eq levelPart (ReloadsAs.level _),
    Fields.get_eq timePart htime, Fields.get_eq prevPart hprev, Fields.get_eq contentPart hcontent,
    Fields.get_eq hashPart hhash, Fields.get_eq votesPart hvotes,
    Fields.optional_eq proofPart hproof, Fields.optional_eq heightPart hheight,
    Fields.get_eq phasePart (ReloadsAs.phase _), Fields.get_eq costPart hcost]
  rfl

theorem unsigned_eq_self_iff {e : Entry} : e.unsigned = e ↔ ¬ e.content.HasSignedZero := by
  rw [← Content.unsigned_eq_self_iff]
  obtain ⟨⟩ := e
  simp [unsigned]

end Entry

/-! ## Blocks -/

namespace Block

/-- The block without the signs of the zeros in the contents of its entries. -/
def unsigned (b : Block) : Block := { b with entries := b.entries.map Entry.unsigned }

/-- Whether a block can be kept: its entries can, its time is in a year of four digits, and its
    numbers have 64 bits. -/
structure Storable (b : Block) : Prop where
  height : b.height < UInt64.size
  timestamp : b.timestamp.InYears
  entries : ∀ e ∈ b.entries, e.Storable
  totalCost : b.totalCost < UInt64.size

theorem reloadsAs {b : Block} (h : b.Storable) : ReloadsAs b b.unsigned := by
  have hheight := nat h.height
  have htime := instant h.timestamp
  have hentries : ReloadsAs b.entries (b.entries.map Entry.unsigned) := by
    apply list
    rw [List.forall₂_map_right_iff, List.forall₂_same]
    exact fun e he => Entry.reloadsAs (h.entries e he)
  have hprev := digest b.prevHash
  have hroot := digest b.merkleRoot
  have hsignatures := digests b.signatures
  have hcost := nat h.totalCost
  refine .of_members rfl (by simp)
    ⟨hheight.wellFormed, htime.wellFormed, hentries.wellFormed, hprev.wellFormed, hroot.wellFormed,
      hsignatures.wellFormed, hcost.wellFormed, trivial⟩
    fun f ⟨heightPart, timePart, entriesPart, prevPart, rootPart, signaturesPart, costPart, _⟩ => ?_
  show Block.ofJson? _ = _
  rw [Block.ofJson?, Fields.of?_bind, Fields.get_eq heightPart hheight,
    Fields.get_eq timePart htime, Fields.get_eq entriesPart hentries, Fields.get_eq prevPart hprev,
    Fields.get_eq rootPart hroot, Fields.get_eq signaturesPart hsignatures,
    Fields.get_eq costPart hcost]
  rfl

/-- A block is read back as it was exactly if none of its entries has content with a signed zero. -/
theorem unsigned_eq_self_iff {b : Block} :
    b.unsigned = b ↔ ∀ e ∈ b.entries, ¬ e.content.HasSignedZero := by
  have hentries : b.unsigned = b ↔ b.entries.map Entry.unsigned = b.entries.map id := by
    rw [List.map_id]
    constructor
    · exact fun h => congrArg Block.entries h
    · intro h
      rw [unsigned, h]
  rw [hentries, List.map_inj_left]
  simp only [id_eq, Entry.unsigned_eq_self_iff]

end Block

end WitnessLedger
