import WitnessLedger.Document.Entry
import WitnessLedger.Proofs.Json.Nesting

/-!
# How deep documents are nested

Contents, entries and blocks are records of a fixed shape, and no part of them stands deeper than in
a few arrays and objects.  Their texts are far from the limit of a reader.

## Key results

- `Content.nesting_le`, `Entry.nesting_le`, `Block.nesting_le`: how deep documents are nested
-/

namespace WitnessLedger

namespace Document

variable {α : Type} [Document α]

/-! ## Values without parts -/

/-- The documents of values that have no parts are nested in nothing. -/
class Flat (α : Type) [Document α] : Prop where
  nesting_eq (x : α) : (toJson x).nesting = 0

attribute [simp] Flat.nesting_eq

instance : Flat String := ⟨fun _ => rfl⟩

instance : Flat Bool := ⟨fun _ => rfl⟩

instance : Flat Nat := ⟨fun _ => rfl⟩

instance : Flat UInt32 := ⟨fun _ => rfl⟩

instance : Flat UInt64 := ⟨fun _ => rfl⟩

instance : Flat Decimal := ⟨fun _ => rfl⟩

instance : Flat Instant := ⟨fun _ => rfl⟩

instance : Flat EntryKind := ⟨fun _ => rfl⟩

instance : Flat Level := ⟨fun _ => rfl⟩

instance : Flat Phase := ⟨fun _ => rfl⟩

instance : Flat Merkle.Side := ⟨fun _ => rfl⟩

instance : Flat Double := ⟨fun x => by cases x <;> rfl⟩

/-- An optional value is the value, or it is missing. -/
instance [Flat α] : Flat (Option α) where
  nesting_eq
    | none => rfl
    | some x => Flat.nesting_eq x

/-! ## Values with parts -/

variable {n : Nat}

/-- An array is one deeper than its elements. -/
theorem nesting_array_le {xs : List Json} (h : ∀ x ∈ xs, x.nesting ≤ n) :
    (Json.array xs).nesting ≤ n + 1 :=
  Nat.succ_le_succ (Json.nestingElements_le_iff.2 h)

/-- An object is one deeper than the values of its members. -/
theorem nesting_object_le {ms : List (String × Json)} (h : ∀ m ∈ ms, m.2.nesting ≤ n) :
    (Json.object ms).nesting ≤ n + 1 :=
  Nat.succ_le_succ (Json.nestingMembers_le_iff.2 h)

theorem nesting_list_le {xs : List α} (h : ∀ x ∈ xs, (toJson x).nesting ≤ n) :
    (toJson xs).nesting ≤ n + 1 :=
  nesting_array_le (List.forall_mem_map.2 h)

theorem nesting_option_le {x : Option α} (h : ∀ y ∈ x, (toJson y).nesting ≤ n) :
    (toJson x).nesting ≤ n := by
  cases x with
  | none => exact Nat.zero_le n
  | some y => exact h y rfl

theorem nesting_map_le {m : SortedMap α} (h : ∀ p ∈ m.toList, (toJson p.2).nesting ≤ n) :
    (toJson m).nesting ≤ n + 1 :=
  nesting_object_le (List.forall_mem_map.2 h)

theorem nesting_digest_le (d : Digest) : (toJson d).nesting ≤ 1 :=
  nesting_array_le (List.forall_mem_map.2 fun _ _ => Nat.le_refl 0)

theorem nesting_strings_le (ss : List String) : (toJson ss).nesting ≤ 1 :=
  nesting_list_le fun _ _ => Nat.le_refl 0

end Document

open Document

/-! ## Records -/

theorem Payload.nesting_le (p : Payload) : (toJson p).nesting ≤ 2 := by
  apply nesting_object_le
  cases p <;>
    simp [Json.nesting, members, Statement.members, Discharge.members, Conservation.members,
      Registration.members, Amendment.members, Credential.members, AuditSeal.members,
      Transfer.members, Respent.members, nesting_strings_le]

theorem Content.nesting_le (c : Content) : (toJson c).nesting ≤ 3 := by
  apply nesting_object_le
  simp [c.payload.nesting_le]

theorem Merkle.Step.nesting_le (s : Merkle.Step) : (toJson s).nesting ≤ 2 := by
  apply nesting_object_le
  simp [nesting_digest_le]

theorem Merkle.Proof.nesting_le (p : Merkle.Proof) : (toJson p).nesting ≤ 4 := by
  have hleaf := nesting_digest_le p.leafHash
  have hpath : (toJson p.path).nesting ≤ 3 := nesting_list_le fun s _ => s.nesting_le
  have hroot := nesting_digest_le p.root
  have hparts : (toJson p.leafHash).nesting ≤ 3 ∧ (toJson p.root).nesting ≤ 3 := by omega
  apply nesting_object_le
  simp [hpath, hparts]

theorem Vote.nesting_le (v : Vote) : (toJson v).nesting ≤ 2 := by
  apply nesting_object_le
  simp [nesting_digest_le]

theorem Entry.nesting_le (e : Entry) : (toJson e).nesting ≤ 5 := by
  have hprev := nesting_digest_le e.prevHash
  have hcontent := e.content.nesting_le
  have hhash := nesting_digest_le e.contentHash
  have hvotes : (toJson e.votes).nesting ≤ 3 := nesting_list_le fun v _ => v.nesting_le
  have hproof : (toJson e.proof).nesting ≤ 4 := nesting_option_le fun p _ => p.nesting_le
  have hparts : (toJson e.prevHash).nesting ≤ 4 ∧ (toJson e.content).nesting ≤ 4 ∧
      (toJson e.contentHash).nesting ≤ 4 ∧ (toJson e.votes).nesting ≤ 4 := by omega
  apply nesting_object_le
  simp [hparts, hproof]

theorem Block.nesting_le (b : Block) : (toJson b).nesting ≤ 7 := by
  have hentries : (toJson b.entries).nesting ≤ 6 := nesting_list_le fun e _ => e.nesting_le
  have hprev := nesting_digest_le b.prevHash
  have hroot := nesting_digest_le b.merkleRoot
  have hsignatures : (toJson b.signatures).nesting ≤ 2 :=
    nesting_map_le fun p _ => nesting_digest_le p.2
  have hparts : (toJson b.prevHash).nesting ≤ 6 ∧ (toJson b.merkleRoot).nesting ≤ 6 ∧
      (toJson b.signatures).nesting ≤ 6 := by omega
  apply nesting_object_le
  simp [hentries, hparts]

end WitnessLedger
