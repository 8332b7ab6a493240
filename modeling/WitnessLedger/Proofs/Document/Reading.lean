import WitnessLedger.Document.Basic
import WitnessLedger.Proofs.Decimal.Text
import WitnessLedger.Proofs.Json.RoundTrip
import WitnessLedger.Proofs.Time.Text

/-!
# Documents read back

What is kept of a value is the text of its document.  `Document.ReloadsAs` says that this text can
be read and what value it gives, in two facts that carry over from parts to wholes: the document is
well-formed, and the document with its members sorted, which is what reading the text gives,
denotes that value.

## Key results

- `ReloadsAs.reload_eq`: the text of a document is read as the value
- `ReloadsAs.of_members`: a record is read from the members of its document, in any order
- `ReloadsAs.list`, `ReloadsAs.map`: lists and maps are read element by element
-/

namespace WitnessLedger

namespace Fields

/-- The parts of an object with the given members, when it has been read. -/
def read (ms : List (String × Json)) : Fields :=
  ⟨(SortedMap.ofList (Json.sortedMembers ms)).toList⟩

/-- Whether parts are among those of a document as it has been read. -/
def Holds (f : Fields) : List (String × Json) → Prop
  | [] => True
  | (name, v) :: ms => f.part? name = some v.sorted ∧ f.Holds ms

theorem holds_iff {f : Fields} {ms : List (String × Json)} :
    f.Holds ms ↔ ∀ p ∈ ms, f.part? p.1 = some p.2.sorted := by
  induction ms with
  | nil => simp [Holds]
  | cons p ms ih => rw [Holds, ih, List.forall_mem_cons]

theorem mem_sortedMembers {ms : List (String × Json)} {p : String × Json} (h : p ∈ ms) :
    (p.1, p.2.sorted) ∈ Json.sortedMembers ms := by
  induction ms with
  | nil => cases h
  | cons q ms ih =>
    rw [Json.sortedMembers, List.mem_cons]
    rcases List.mem_cons.1 h with rfl | h
    · exact .inl rfl
    · exact .inr (ih h)

/-- Members with different names are found again. -/
theorem holds_read {ms : List (String × Json)} (h : (ms.map Prod.fst).Nodup) :
    (read ms).Holds ms := by
  rw [← Json.map_fst_sortedMembers] at h
  exact holds_iff.2 fun p hp => SortedMap.find?_ofList h (mem_sortedMembers hp)

/-- Objects that are sorted into the same one have each other's members. -/
theorem holds_of_sorted_eq {ms ns : List (String × Json)}
    (h : (Json.object ms).sorted = (Json.object ns).sorted) (hn : (ns.map Prod.fst).Nodup) :
    (read ms).Holds ns := by
  have hmembers : read ms = read ns := congrArg Fields.mk (Json.object.inj h)
  rw [hmembers]
  exact holds_read hn

end Fields

namespace Document

variable {α : Type} [Document α] {x y : α}

/-- The value that the text of a document is read as. -/
def reload (x : α) : Option α := (Json.read? (toJson x).text).bind ofJson?

/-- Whether a document can be written, and what it denotes when it is read. -/
structure ReloadsAs (x y : α) : Prop where
  wellFormed : (toJson x).WellFormed
  ofJson?_eq : ofJson? (toJson x).sorted = some y

/-- The text of a document that is not nested too deep is read as the value that the document
    denotes. -/
theorem ReloadsAs.reload_eq (h : ReloadsAs x y) (hdepth : (toJson x).nesting ≤ Json.nestingLimit) :
    reload x = some y := by
  rw [reload, Json.read?_text h.wellFormed hdepth, Option.bind_some, h.ofJson?_eq]

end Document

namespace Fields

open Document

variable {α : Type} [Document α] {f : Fields} {name : String}

/-- An object is read by its parts. -/
theorem of?_bind (names : List String) (f : Fields) {β : Type} (k : Fields → Option β) :
    (of? names (.object f.members) >>= k) = k f := rfl

theorem get_eq {x y : α} (hpart : f.part? name = some (toJson x).sorted) (hx : ReloadsAs x y) :
    f.get name = some y := by
  rw [get, hpart, Option.bind_some, hx.ofJson?_eq]

/-- A field that may be null is read like any other. -/
theorem optional_eq {x y : Option α} (hpart : f.part? name = some (toJson x).sorted)
    (hx : ReloadsAs x y) : f.optional name = some y := by
  have hread := hx.ofJson?_eq
  rw [optional, hpart]
  generalize (toJson x).sorted = v at hread ⊢
  cases v <;> exact hread

end Fields

namespace Document.ReloadsAs

variable {α : Type} [Document α]

/-! ## Values without parts -/

theorem string (s : String) : ReloadsAs s s := ⟨trivial, rfl⟩

theorem bool (b : Bool) : ReloadsAs b b := ⟨trivial, rfl⟩

theorem wellFormed_natural {n : Nat} (h : n < UInt64.size) : (Json.natural n).WellFormed := by
  rw [UInt64.size] at h
  exact ⟨by omega, by omega⟩

theorem naturalBelow?_natural {bound n : Nat} (h : n < bound) :
    Json.naturalBelow? bound (.natural n) = some n := if_pos h

theorem nat {n : Nat} (h : n < UInt64.size) : ReloadsAs n n :=
  ⟨wellFormed_natural h, naturalBelow?_natural h⟩

theorem word32 (n : UInt32) : ReloadsAs n n where
  wellFormed := wellFormed_natural (Nat.lt_trans n.toNat_lt_size (by decide))
  ofJson?_eq := by
    show (Json.naturalBelow? UInt32.size (.natural n.toNat)).map UInt32.ofNat = some n
    rw [naturalBelow?_natural n.toNat_lt_size, Option.map_some, UInt32.ofNat_toNat]

theorem word64 (n : UInt64) : ReloadsAs n n where
  wellFormed := wellFormed_natural n.toNat_lt_size
  ofJson?_eq := by
    show (Json.naturalBelow? UInt64.size (.natural n.toNat)).map UInt64.ofNat = some n
    rw [naturalBelow?_natural n.toNat_lt_size, Option.map_some, UInt64.ofNat_toNat]

theorem double {x : Double} (h : x.isFinite = true) : ReloadsAs x x := by
  cases x with
  | finite s a => exact ⟨trivial, rfl⟩
  | _ => cases h

/-- A decimal loses the sign of a zero. -/
theorem decimal (d : Decimal) : ReloadsAs d d.unsigned := ⟨trivial, d.read?_text⟩

theorem instant {t : Instant} (h : t.InYears) : ReloadsAs t t := ⟨trivial, Instant.read?_text h⟩

/-! ## Lists -/

/-- A list is read element by element. -/
theorem list {xs ys : List α} (h : List.Forall₂ ReloadsAs xs ys) : ReloadsAs xs ys := by
  have hparts : Json.WellFormedElements (xs.map toJson) ∧
      (Json.sortedElements (xs.map toJson)).mapM ofJson? = some ys := by
    induction h with
    | nil => exact ⟨trivial, rfl⟩
    | cons hx _ ih =>
      refine ⟨⟨hx.wellFormed, ih.1⟩, ?_⟩
      rw [List.map_cons, Json.sortedElements, List.mapM_cons, hx.ofJson?_eq, ih.2]
      rfl
  exact ⟨hparts.1, hparts.2⟩

theorem strings (ss : List String) : ReloadsAs ss ss :=
  list (List.forall₂_same.2 fun s _ => string s)

theorem digest (d : Digest) : ReloadsAs d d := by
  have hparts : ∀ bytes : List UInt8,
      Json.WellFormedElements (bytes.map fun b => .natural b.toNat) ∧
        (Json.sortedElements (bytes.map fun b => .natural b.toNat)).mapM (Json.naturalBelow? 256) =
          some (bytes.map UInt8.toNat) := by
    intro bytes
    induction bytes with
    | nil => exact ⟨trivial, rfl⟩
    | cons b bytes ih =>
      refine ⟨⟨wellFormed_natural (Nat.lt_trans b.toNat_lt_size (by decide)), ih.1⟩, ?_⟩
      rw [List.map_cons, Json.sortedElements, List.mapM_cons]
      show (Json.naturalBelow? 256 (.natural b.toNat)).bind _ = _
      rw [naturalBelow?_natural b.toNat_lt_size, ih.2]
      rfl
  have hback : (d.bytes.map UInt8.toNat).map UInt8.ofNat = d.bytes := by
    simp [Function.comp_def]
  refine ⟨(hparts d.bytes).1, ?_⟩
  show ((Json.sortedElements _).mapM (Json.naturalBelow? 256)).bind _ = _
  rw [(hparts d.bytes).2, Option.bind_some, hback, Digest.ofBytes?, dif_pos d.length_eq]

theorem absent : ReloadsAs (none : Option α) none := ⟨trivial, rfl⟩

/-- A value whose document is not null is read where it may be missing. -/
theorem present {x y : α} (h : ReloadsAs x y) (hne : (toJson x).sorted ≠ .null) :
    ReloadsAs (some x) (some y) where
  wellFormed := h.wellFormed
  ofJson?_eq := by
    have hread := h.ofJson?_eq
    show ofJson? (α := Option α) (toJson x).sorted = _
    generalize (toJson x).sorted = v at hread hne ⊢
    cases v with
    | null => exact absurd rfl hne
    | _ => exact congrArg (Option.map some) hread

theorem optionString (s : Option String) : ReloadsAs s s := by
  cases s with
  | none => exact absent
  | some s => exact present (string s) (by intro h; cases h)

theorem optionNat {n : Option Nat} (h : ∀ k ∈ n, k < UInt64.size) : ReloadsAs n n := by
  cases n with
  | none => exact absent
  | some n => exact present (nat (h n rfl)) (by intro h; cases h)

theorem optionDouble {x : Option Double} (h : ∀ y ∈ x, y.isFinite = true) : ReloadsAs x x := by
  cases x with
  | none => exact absent
  | some x =>
    have hx : x.isFinite = true := h x rfl
    refine present (double hx) ?_
    cases x with
    | finite s a =>
      intro h
      cases h
    | _ => cases hx

/-! ## Objects -/

/-- A record is read from the members of its document, in whatever order they are found. -/
theorem of_members {x y : α} {ms : List (String × Json)} (htoJson : toJson x = .object ms)
    (hnames : (ms.map Prod.fst).Nodup) (hms : Json.WellFormedMembers ms)
    (hread : ∀ f : Fields, f.Holds ms → ofJson? (.object f.members) = some y) :
    ReloadsAs x y where
  wellFormed := by
    rw [htoJson]
    exact ⟨hnames, hms⟩
  ofJson?_eq := by
    rw [htoJson]
    exact hread (.read ms) (Fields.holds_read hnames)

/-- Members of a document of a map are in the order of their names already. -/
theorem ofList_sortedMembers (m : SortedMap α) :
    (SortedMap.ofList (Json.sortedMembers (m.toList.map fun p => (p.1, toJson p.2)))).toList =
      Json.sortedMembers (m.toList.map fun p => (p.1, toJson p.2)) := by
  have hsorted : (Json.sortedMembers (m.toList.map fun p => (p.1, toJson p.2))).Pairwise
      fun a b => a.1 < b.1 := by
    rw [← List.pairwise_map (f := Prod.fst) (R := (· < ·)), Json.map_fst_sortedMembers,
      List.map_map]
    exact List.pairwise_map.2 m.sorted
  exact congrArg SortedMap.toList (SortedMap.ofList_toList ⟨_, hsorted⟩)

/-- A map is read member by member. -/
theorem map {m n : SortedMap α}
    (h : List.Forall₂ (fun p q => p.1 = q.1 ∧ ReloadsAs p.2 q.2) m.toList n.toList) :
    ReloadsAs m n := by
  have hparts : ∀ {ps qs : List (String × α)},
      List.Forall₂ (fun p q => p.1 = q.1 ∧ ReloadsAs p.2 q.2) ps qs →
        Json.WellFormedMembers (ps.map fun p => (p.1, toJson p.2)) ∧
        (Json.sortedMembers (ps.map fun p => (p.1, toJson p.2))).mapM
          (fun p => (ofJson? p.2).map fun x => (p.1, x)) = some qs := by
    intro ps qs hall
    induction hall with
    | nil => exact ⟨trivial, rfl⟩
    | cons hp _ ih =>
      refine ⟨⟨hp.2.wellFormed, ih.1⟩, ?_⟩
      rw [List.map_cons, Json.sortedMembers, List.mapM_cons, hp.2.ofJson?_eq, ih.2, hp.1]
      rfl
  have hkeys : ((m.toList.map fun p => (p.1, toJson p.2)).map Prod.fst).Nodup := by
    rw [List.map_map]
    exact m.nodup_keys
  refine ⟨⟨hkeys, (hparts h).1⟩, ?_⟩
  show Option.bind (List.mapM _ (SortedMap.ofList (Json.sortedMembers _)).toList)
    (fun parts => some (SortedMap.ofList parts)) = _
  rw [ofList_sortedMembers, (hparts h).2, Option.bind_some, n.ofList_toList]

theorem digests (m : SortedMap Digest) : ReloadsAs m m :=
  map (List.forall₂_same.2 fun p _ => ⟨rfl, digest p.2⟩)

end Document.ReloadsAs

end WitnessLedger
