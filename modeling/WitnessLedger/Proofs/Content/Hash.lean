import WitnessLedger.Content.Hash
import WitnessLedger.Proofs.Digest.Collision

/-!
# What the hash of content says

The hash of content is the digest of one string, and this string gives away the canonical text.

## Key results

- `Content.hash_eq_iff`: when two contents have the same hash
- `Content.canonicals_eq_or_collide`: what the hashes of several contents say of their texts
-/

namespace WitnessLedger

/-- The string that is hashed for content with a canonical text. -/
def Content.textBytes (text : String) : List UInt8 :=
  Digest.taggedBytes Digest.contentTag (Text.bytes text)

theorem Content.hash_eq (content : Content) :
    content.hash = Digest.sha256 (textBytes content.canonical) :=
  rfl

/-- The hashed string gives away the canonical text. -/
theorem Content.textBytes_injective : Function.Injective textBytes := by
  intro text text' h
  rw [textBytes, textBytes, Digest.taggedBytes, Digest.taggedBytes, List.append_right_inj,
    List.cons.injEq] at h
  exact Text.bytes_inj.1 h.2

/-- Two contents have the same hash exactly if they have the same canonical text, or the strings
    that are hashed for them collide. -/
theorem Content.hash_eq_iff {a b : Content} :
    a.hash = b.hash ↔ a.canonical = b.canonical ∨
      Digest.Collide [textBytes a.canonical] [textBytes b.canonical] := by
  rw [hash_eq, hash_eq]
  constructor
  · intro h
    refine (Digest.eq_or_collide h ?_ ?_).imp_left fun heq => textBytes_injective heq
    · exact List.mem_singleton_self _
    · exact List.mem_singleton_self _
  · rintro (heq | ⟨x, hx, y, hy, -, hcollide⟩)
    · rw [heq]
    · rwa [List.mem_singleton.1 hx, List.mem_singleton.1 hy] at hcollide

/-- Contents with the same hashes have the same canonical texts, or two of the strings that were
    hashed for them collide. -/
theorem Content.canonicals_eq_or_collide {cs cs' : List Content}
    (h : cs.map Content.hash = cs'.map Content.hash) :
    cs.map canonical = cs'.map canonical ∨
      Digest.Collide ((cs.map canonical).map textBytes) ((cs'.map canonical).map textBytes) := by
  have hdigests : ((cs.map canonical).map textBytes).map Digest.sha256 =
      ((cs'.map canonical).map textBytes).map Digest.sha256 := by
    rw [List.map_map, List.map_map, List.map_map, List.map_map]
    exact h
  refine (Digest.map_eq_or_collide hdigests).imp_left fun heq => ?_
  exact List.map_injective_iff.2 textBytes_injective heq

end WitnessLedger
