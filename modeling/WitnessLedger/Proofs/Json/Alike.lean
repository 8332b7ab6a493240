import WitnessLedger.Json.Canonical
import WitnessLedger.Proofs.SortedMap
import Mathlib.Algebra.Ring.Int.Defs

/-!
# Values up to the order of members

Two values are alike where they differ only in the order in which the members of objects stand, at
any depth.  Sorting the members chooses one value among those that are alike.

## Key results

- `Alike.sorted_eq`: alike values are sorted into the same one
- `alike_sorted`: a value is like the one that it is sorted into
- `sorted_eq_iff`: sorting decides whether two values are alike
-/

namespace WitnessLedger.Json

mutual

/-- Values that differ in the order of members only.  Numbers are compared as they stand: an
    integer is not like a double, and the two zeros of doubles are not alike. -/
inductive Alike : Json → Json → Prop where
  | null : Alike .null .null
  | bool (b : Bool) : Alike (.bool b) (.bool b)
  | integer (n : Int) : Alike (.integer n) (.integer n)
  | real (s : Bool) (a : Magnitude) : Alike (.real s a) (.real s a)
  | string (s : String) : Alike (.string s) (.string s)
  | array {xs ys : List Json} (h : AlikeElements xs ys) : Alike (.array xs) (.array ys)
  | object {ms ns : List (String × Json)} (h : AlikeMembers ms ns) :
    Alike (.object ms) (.object ns)

/-- Elements that are alike one by one. -/
inductive AlikeElements : List Json → List Json → Prop where
  | nil : AlikeElements [] []
  | cons {x y : Json} {xs ys : List Json} (h : Alike x y) (hrest : AlikeElements xs ys) :
    AlikeElements (x :: xs) (y :: ys)

/-- Members with the same names and values that are alike, in any order. -/
inductive AlikeMembers : List (String × Json) → List (String × Json) → Prop where
  | nil : AlikeMembers [] []
  | cons {k : String} {x y : Json} {ms ns : List (String × Json)} (h : Alike x y)
    (hrest : AlikeMembers ms ns) : AlikeMembers ((k, x) :: ms) ((k, y) :: ns)
  | swap (p q : String × Json) (ms : List (String × Json)) :
    AlikeMembers (p :: q :: ms) (q :: p :: ms)
  | trans {ls ms ns : List (String × Json)} (h : AlikeMembers ls ms) (h' : AlikeMembers ms ns) :
    AlikeMembers ls ns

end

mutual

/-- A value as it can be written: no object has two members of one name, and integers have 64
    bits. -/
def WellFormed : Json → Prop
  | .integer n => -2 ^ 63 ≤ n ∧ n < 2 ^ 64
  | .array xs => WellFormedElements xs
  | .object ms => (ms.map Prod.fst).Nodup ∧ WellFormedMembers ms
  | .null => True
  | .bool _ => True
  | .real _ _ => True
  | .string _ => True

/-- So are all the elements. -/
def WellFormedElements : List Json → Prop
  | [] => True
  | x :: xs => x.WellFormed ∧ WellFormedElements xs

/-- So are the values of all the members. -/
def WellFormedMembers : List (String × Json) → Prop
  | [] => True
  | (_, x) :: ms => x.WellFormed ∧ WellFormedMembers ms

end

/-! ## An equivalence -/

mutual

theorem Alike.refl : ∀ v : Json, Alike v v
  | .null => .null
  | .bool b => .bool b
  | .integer n => .integer n
  | .real s a => .real s a
  | .string s => .string s
  | .array xs => .array (AlikeElements.refl xs)
  | .object ms => .object (AlikeMembers.refl ms)

theorem AlikeElements.refl : ∀ xs : List Json, AlikeElements xs xs
  | [] => .nil
  | x :: xs => .cons (Alike.refl x) (AlikeElements.refl xs)

theorem AlikeMembers.refl : ∀ ms : List (String × Json), AlikeMembers ms ms
  | [] => .nil
  | (_, x) :: ms => .cons (Alike.refl x) (AlikeMembers.refl ms)

end

mutual

theorem Alike.symm {v w : Json} : Alike v w → Alike w v
  | .null => .null
  | .bool b => .bool b
  | .integer n => .integer n
  | .real s a => .real s a
  | .string s => .string s
  | .array h => .array h.symm
  | .object h => .object h.symm

theorem AlikeElements.symm {xs ys : List Json} : AlikeElements xs ys → AlikeElements ys xs
  | .nil => .nil
  | .cons h hrest => .cons h.symm hrest.symm

theorem AlikeMembers.symm {ms ns : List (String × Json)} : AlikeMembers ms ns → AlikeMembers ns ms
  | .nil => .nil
  | .cons h hrest => .cons h.symm hrest.symm
  | .swap p q ms => .swap q p ms
  | .trans h h' => .trans h'.symm h.symm

end

mutual

theorem Alike.trans {u v w : Json} : Alike u v → Alike v w → Alike u w
  | .null, h => h
  | .bool _, h => h
  | .integer _, h => h
  | .real _ _, h => h
  | .string _, h => h
  | .array h, .array h' => .array (h.trans h')
  | .object h, .object h' => .object (.trans h h')

theorem AlikeElements.trans {xs ys zs : List Json} :
    AlikeElements xs ys → AlikeElements ys zs → AlikeElements xs zs
  | .nil, h => h
  | .cons h hrest, .cons h' hrest' => .cons (h.trans h') (hrest.trans hrest')

end

/-- Members in another order are alike. -/
theorem AlikeMembers.of_perm {ms ns : List (String × Json)} (h : ms.Perm ns) :
    AlikeMembers ms ns := by
  induction h with
  | nil => exact .nil
  | cons p _ ih => exact .cons (.refl p.2) ih
  | swap p q ms => exact .swap q p ms
  | trans _ _ ih ih' => exact .trans ih ih'

/-! ## Sorting -/

theorem map_fst_sortedMembers (ms : List (String × Json)) :
    (sortedMembers ms).map Prod.fst = ms.map Prod.fst := by
  induction ms with
  | nil => rfl
  | cons p ms ih => rw [sortedMembers, List.map_cons, List.map_cons, ih]

mutual

/-- Alike values are sorted into the same one, and one is well-formed if the other is. -/
theorem Alike.sorted_eq {v w : Json} :
    Alike v w → v.WellFormed → w.WellFormed ∧ v.sorted = w.sorted
  | .null, _ => ⟨trivial, rfl⟩
  | .bool _, _ => ⟨trivial, rfl⟩
  | .integer _, hv => ⟨hv, rfl⟩
  | .real _ _, _ => ⟨trivial, rfl⟩
  | .string _, _ => ⟨trivial, rfl⟩
  | .array h, hv =>
    have hsorted := h.sorted_eq hv
    ⟨hsorted.1, congrArg Json.array hsorted.2⟩
  | @Alike.object ms ns h, ⟨hkeys, hv⟩ => by
    obtain ⟨hw, hperm⟩ := h.sorted_perm hv
    -- with the values sorted, the members are the same ones, and so are their names
    have hkeys' : (ns.map Prod.fst).Nodup := by
      rw [← map_fst_sortedMembers, ← (hperm.map Prod.fst).nodup_iff, map_fst_sortedMembers]
      exact hkeys
    refine ⟨⟨hkeys', hw⟩, ?_⟩
    rw [← map_fst_sortedMembers] at hkeys
    rw [sorted, sorted, sortedObject, sortedObject, SortedMap.ofList_eq_of_perm hkeys hperm]

theorem AlikeElements.sorted_eq {xs ys : List Json} :
    AlikeElements xs ys → WellFormedElements xs →
      WellFormedElements ys ∧ sortedElements xs = sortedElements ys
  | .nil, _ => ⟨trivial, rfl⟩
  | .cons h hrest, ⟨hx, hxs⟩ =>
    have hfirst := h.sorted_eq hx
    have hothers := hrest.sorted_eq hxs
    ⟨⟨hfirst.1, hothers.1⟩, by rw [sortedElements, sortedElements, hfirst.2, hothers.2]⟩

theorem AlikeMembers.sorted_perm {ms ns : List (String × Json)} :
    AlikeMembers ms ns → WellFormedMembers ms →
      WellFormedMembers ns ∧ (sortedMembers ms).Perm (sortedMembers ns)
  | .nil, _ => ⟨trivial, .refl _⟩
  | .cons h hrest, ⟨hx, hms⟩ => by
    obtain ⟨hy, hsorted⟩ := h.sorted_eq hx
    obtain ⟨hns, hperm⟩ := hrest.sorted_perm hms
    refine ⟨⟨hy, hns⟩, ?_⟩
    rw [sortedMembers, sortedMembers, hsorted]
    exact hperm.cons _
  | .swap p q ms, ⟨hp, hq, hms⟩ => ⟨⟨hq, hp, hms⟩, .swap ..⟩
  | .trans h h', hms => by
    obtain ⟨hmiddle, hperm⟩ := h.sorted_perm hms
    obtain ⟨hns, hperm'⟩ := h'.sorted_perm hmiddle
    exact ⟨hns, hperm.trans hperm'⟩

end

/-- Sorting the members of one object makes an object like it. -/
theorem alike_sortedObject {ms : List (String × Json)} (h : (ms.map Prod.fst).Nodup) :
    Alike (.object ms) (sortedObject ms) :=
  .object (.of_perm (SortedMap.ofList_perm h).symm)

mutual

/-- A value is like the one that it is sorted into. -/
theorem alike_sorted : ∀ v : Json, v.WellFormed → Alike v v.sorted
  | .null, _ => .null
  | .bool b, _ => .bool b
  | .integer n, _ => .integer n
  | .real s a, _ => .real s a
  | .string s, _ => .string s
  | .array xs, hv => .array (alike_sortedElements xs hv)
  | .object ms, ⟨hkeys, hv⟩ => by
    rw [← map_fst_sortedMembers] at hkeys
    exact (Alike.object (alike_sortedMembers ms hv)).trans (alike_sortedObject hkeys)

theorem alike_sortedElements : ∀ xs : List Json, WellFormedElements xs →
    AlikeElements xs (sortedElements xs)
  | [], _ => .nil
  | x :: xs, ⟨hx, hxs⟩ => .cons (alike_sorted x hx) (alike_sortedElements xs hxs)

theorem alike_sortedMembers : ∀ ms : List (String × Json), WellFormedMembers ms →
    AlikeMembers ms (sortedMembers ms)
  | [], _ => .nil
  | (_, x) :: ms, ⟨hx, hms⟩ => .cons (alike_sorted x hx) (alike_sortedMembers ms hms)

end

theorem WellFormed.sorted {v : Json} (hv : v.WellFormed) : v.sorted.WellFormed :=
  ((alike_sorted v hv).sorted_eq hv).1

/-- A sorted value is not changed any more. -/
theorem sorted_sorted {v : Json} (hv : v.WellFormed) : v.sorted.sorted = v.sorted :=
  ((alike_sorted v hv).sorted_eq hv).2.symm

/-- Sorting decides whether two values are alike. -/
theorem sorted_eq_iff {v w : Json} (hv : v.WellFormed) (hw : w.WellFormed) :
    v.sorted = w.sorted ↔ Alike v w := by
  constructor
  · intro h
    have hv' := alike_sorted v hv
    rw [h] at hv'
    exact hv'.trans (alike_sorted w hw).symm
  · exact fun h => (h.sorted_eq hv).2

end WitnessLedger.Json
