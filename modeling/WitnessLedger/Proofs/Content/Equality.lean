import WitnessLedger.Proofs.Content.Hash
import WitnessLedger.Proofs.Document.Content
import WitnessLedger.Proofs.Double.Equality
import Mathlib.Data.List.Forall2

/-!
# Equal contents and their hashes

Contents are compared by what they denote: an amount is the same with more places, and zero is the
same with a sign.  The canonical text, which is hashed, only puts the members of a document in
order and writes each number as it stands.  Equal contents therefore have the same hash if their
numbers are also written alike, and different canonical texts if not.

## Key results

- `Content.eq_of_same`: equal contents that are written alike are the same content
- `Content.hash_of_same`: what the hashes of equal contents say
-/

namespace WitnessLedger

/-- Whether two payloads agree in everything but their decimals, and these denote the same
    amounts. -/
structure Payload.Same (p q : Payload) : Prop where
  rest : p.mapDecimals (fun _ => .zero) = q.mapDecimals fun _ => .zero
  amounts : List.Forall₂ (fun d e => d.sameAmount e = true) p.decimals q.decimals

namespace Content

/-- Whether two contents are equal in what they denote. -/
structure Same (a b : Content) : Prop where
  subtype : a.subtype = b.subtype
  score : Option.Rel (fun x y => x.same y = true) a.anomalyScore b.anomalyScore
  payload : a.payload.Same b.payload

/-- Whether the numbers of two contents are written alike: the decimals with as many places and
    the same sign, and the scores with the same sign. -/
structure WrittenAlike (a b : Content) : Prop where
  score : Option.Rel (fun x y => x.isNegative = y.isNegative) a.anomalyScore b.anomalyScore
  decimals : List.Forall₂ (fun d e => d.scale = e.scale ∧ d.negative = e.negative)
    a.payload.decimals b.payload.decimals

variable {a b : Content}

theorem WrittenAlike.refl (a : Content) : a.WrittenAlike a where
  score := by
    cases a.anomalyScore with
    | none => exact .none
    | some x => exact .some rfl
  decimals := List.forall₂_same.2 fun _ _ => ⟨rfl, rfl⟩

section Relations

variable {α : Type} {r r' : α → α → Prop} (hr : ∀ x y, r x y → r' x y → x = y)
include hr

private theorem eq_of_rel {x y : Option α} (h : Option.Rel r x y) (h' : Option.Rel r' x y) :
    x = y := by
  cases h with
  | none => rfl
  | some hxy =>
    cases h' with
    | some hxy' => rw [hr _ _ hxy hxy']

private theorem eq_of_forall₂ {xs ys : List α} (h : List.Forall₂ r xs ys)
    (h' : List.Forall₂ r' xs ys) : xs = ys := by
  induction h with
  | nil => rfl
  | cons hxy _ ih =>
    cases h' with
    | cons hxy' hrest => rw [hr _ _ hxy hxy', ih hrest]

end Relations

/-- Equal contents whose numbers are written alike are the same content. -/
theorem eq_of_same (h : a.Same b) (hwritten : a.WrittenAlike b) : a = b := by
  have hscore : a.anomalyScore = b.anomalyScore :=
    eq_of_rel (fun _ _ => Double.eq_of_same) h.score hwritten.score
  have hdecimals : a.payload.decimals = b.payload.decimals :=
    eq_of_forall₂ (fun _ _ hsame hform => Decimal.eq_of_sameAmount hsame hform.1 hform.2)
      h.payload.amounts hwritten.decimals
  -- besides the decimals the payloads agree by assumption
  have hpayload : a.payload = b.payload :=
    Payload.eq_of_mapDecimals_eq h.payload.rest hdecimals
  calc a = ⟨a.subtype, a.anomalyScore, a.payload⟩ := rfl
    _ = ⟨b.subtype, b.anomalyScore, b.payload⟩ := by rw [h.subtype, hscore, hpayload]

/-- Contents that pass their checks and are equal have the same canonical text exactly if their
    numbers are written alike, and the same hash exactly if they are or the strings that are hashed
    collide. -/
theorem hash_of_same (ha : a.validate = .ok ()) (hb : b.validate = .ok ()) (h : a.Same b) :
    (a.canonical = b.canonical ↔ a.WrittenAlike b) ∧
      (a.hash = b.hash ↔ a.WrittenAlike b ∨
        Digest.Collide [textBytes a.canonical] [textBytes b.canonical]) := by
  have htext : a.canonical = b.canonical ↔ a.WrittenAlike b := by
    rw [canonical_inj (isFinite_of_validate ha) (isFinite_of_validate hb)]
    constructor
    · rintro rfl
      exact .refl a
    · exact eq_of_same h
  refine ⟨htext, ?_⟩
  rw [hash_eq_iff, htext]

/-- A transfer of sixty and a half, written with one place or with two. -/
def sixtyAndHalf (twoPlaces : Bool) : Content :=
  .plain (.transferCommit ⟨"t1", "soc:a", "soc:b",
    if twoPlaces then ⟨false, 6050, 2, by decide⟩ else ⟨false, 605, 1, by decide⟩, none⟩)

theorem same_sixtyAndHalf : (sixtyAndHalf false).Same (sixtyAndHalf true) :=
  ⟨rfl, .none, rfl, .cons (by decide) .nil⟩

/-- The two ways to write the transfer have different texts. -/
theorem canonical_sixtyAndHalf :
    (sixtyAndHalf false).validate = .ok () ∧ (sixtyAndHalf true).validate = .ok () ∧
      (sixtyAndHalf false).Same (sixtyAndHalf true) ∧
      (sixtyAndHalf false).canonical ≠ (sixtyAndHalf true).canonical := by
  have hwritten : ¬ (sixtyAndHalf false).WrittenAlike (sixtyAndHalf true) := by
    rintro ⟨-, hdecimals⟩
    cases hdecimals with
    | cons hform _ => exact absurd hform (by decide)
  refine ⟨rfl, rfl, same_sixtyAndHalf, fun htext => hwritten ?_⟩
  exact (hash_of_same rfl rfl same_sixtyAndHalf).1.1 htext

/-- One more place changes the hash. -/
theorem not_hash_eq_sixtyAndHalf : ¬ ∀ a b : Content,
    a.validate = .ok () → b.validate = .ok () → a.Same b → a.hash = b.hash := by
  intro h
  exact absurd (h _ _ rfl rfl same_sixtyAndHalf) (by decide +kernel)

end Content

end WitnessLedger
