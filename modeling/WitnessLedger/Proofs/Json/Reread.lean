import WitnessLedger.Proofs.Json.Nesting
import WitnessLedger.Proofs.Json.Number

/-!
# What values become when their text is read

Reading the text of a value changes three things at most: the members of objects are sorted, doubles
may come out as others where the reader goes step by step, and a value that is nested too deep is
not read.  `reread?` says this without the text.

## Key results

- `reread?_of_finds`: a value of which every double is read back is read back, but for the order of
  members
- `reread?_of_nested`: a value that is nested too deep is not read
- `alike_reread?_iff`: these are the values that are read back
-/

namespace WitnessLedger.Json

mutual

/-- What the text of a value is read as by a reader for values nested up to a depth. -/
def reread? (p : Precision) (depth : Nat) : Json → Option Json
  | .array xs =>
    match depth with
    | 0 => none
    | depth + 1 => (rereadElements? p depth xs).map .array
  | .object ms =>
    match depth with
    | 0 => none
    | depth + 1 => (rereadMembers? p depth ms).map sortedObject
  | .null => some .null
  | .bool b => some (.bool b)
  | .integer n => some (.integer n)
  | .real s a => rereadReal? p s a
  | .string s => some (.string s)

/-- What the elements of an array are read as. -/
def rereadElements? (p : Precision) (depth : Nat) : List Json → Option (List Json)
  | [] => some []
  | x :: xs => do
    let y ← x.reread? p depth
    let ys ← rereadElements? p depth xs
    some (y :: ys)

/-- What the members of an object are read as. -/
def rereadMembers? (p : Precision) (depth : Nat) :
    List (String × Json) → Option (List (String × Json))
  | [] => some []
  | (k, x) :: ms => do
    let y ← x.reread? p depth
    let ns ← rereadMembers? p depth ms
    some ((k, y) :: ns)

end

/-- Whether a reader finds a double again in its text. -/
def Precision.Finds (p : Precision) (negative : Bool) (a : Magnitude) : Prop :=
  rereadReal? p negative a = some (.real negative a)

mutual

/-- Whether something holds of every double in a value. -/
def EveryReal (P : Bool → Magnitude → Prop) : Json → Prop
  | .array xs => EveryRealElements P xs
  | .object ms => EveryRealMembers P ms
  | .null => True
  | .bool _ => True
  | .integer _ => True
  | .real s a => P s a
  | .string _ => True

/-- Whether it holds of every double in the elements of an array. -/
def EveryRealElements (P : Bool → Magnitude → Prop) : List Json → Prop
  | [] => True
  | x :: xs => x.EveryReal P ∧ EveryRealElements P xs

/-- Whether it holds of every double in the values of members. -/
def EveryRealMembers (P : Bool → Magnitude → Prop) : List (String × Json) → Prop
  | [] => True
  | (_, x) :: ms => x.EveryReal P ∧ EveryRealMembers P ms

end

variable {p : Precision} {depth : Nat} {P Q : Bool → Magnitude → Prop}

/-! ## The doubles of a value -/

mutual

theorem EveryReal.imp (h : ∀ s a, P s a → Q s a) : ∀ {v : Json}, v.EveryReal P → v.EveryReal Q
  | .null, _ => trivial
  | .bool _, _ => trivial
  | .integer _, _ => trivial
  | .real s a, hv => h s a hv
  | .string _, _ => trivial
  | .array _, hv => EveryRealElements.imp h hv
  | .object _, hv => EveryRealMembers.imp h hv

theorem EveryRealElements.imp (h : ∀ s a, P s a → Q s a) :
    ∀ {xs : List Json}, EveryRealElements P xs → EveryRealElements Q xs
  | [], _ => trivial
  | _ :: _, ⟨hx, hxs⟩ => ⟨hx.imp h, EveryRealElements.imp h hxs⟩

theorem EveryRealMembers.imp (h : ∀ s a, P s a → Q s a) :
    ∀ {ms : List (String × Json)}, EveryRealMembers P ms → EveryRealMembers Q ms
  | [], _ => trivial
  | (_, _) :: _, ⟨hx, hms⟩ => ⟨hx.imp h, EveryRealMembers.imp h hms⟩

end

mutual

theorem everyReal_of_forall (h : ∀ s a, P s a) : ∀ v : Json, v.EveryReal P
  | .null => trivial
  | .bool _ => trivial
  | .integer _ => trivial
  | .real s a => h s a
  | .string _ => trivial
  | .array xs => everyRealElements_of_forall h xs
  | .object ms => everyRealMembers_of_forall h ms

theorem everyRealElements_of_forall (h : ∀ s a, P s a) : ∀ xs : List Json, EveryRealElements P xs
  | [] => trivial
  | x :: xs => ⟨everyReal_of_forall h x, everyRealElements_of_forall h xs⟩

theorem everyRealMembers_of_forall (h : ∀ s a, P s a) :
    ∀ ms : List (String × Json), EveryRealMembers P ms
  | [] => trivial
  | (_, x) :: ms => ⟨everyReal_of_forall h x, everyRealMembers_of_forall h ms⟩

end

/-- A reader that finds the nearest doubles finds every double again. -/
theorem everyReal_nearest (v : Json) : v.EveryReal Precision.nearest.Finds :=
  everyReal_of_forall rereadReal?_nearest v

/-- A reader that goes step by step finds the doubles with short texts again. -/
theorem everyReal_stepwise {v : Json} (h : v.EveryReal fun _ a => a.IsShort) :
    v.EveryReal Precision.stepwise.Finds :=
  h.imp fun s _ => rereadReal?_of_isShort s

mutual

/-- Alike values have the same doubles. -/
theorem Alike.everyReal {v w : Json} : Alike v w → v.EveryReal P → w.EveryReal P
  | .null, h => h
  | .bool _, h => h
  | .integer _, h => h
  | .real _ _, h => h
  | .string _, h => h
  | .array h, hv => h.everyReal hv
  | .object h, hv => h.everyReal hv

theorem AlikeElements.everyReal {xs ys : List Json} :
    AlikeElements xs ys → EveryRealElements P xs → EveryRealElements P ys
  | .nil, h => h
  | .cons h hrest, ⟨hx, hxs⟩ => ⟨h.everyReal hx, hrest.everyReal hxs⟩

theorem AlikeMembers.everyReal {ms ns : List (String × Json)} :
    AlikeMembers ms ns → EveryRealMembers P ms → EveryRealMembers P ns
  | .nil, h => h
  | .cons h hrest, ⟨hx, hms⟩ => ⟨h.everyReal hx, hrest.everyReal hms⟩
  | .swap .., ⟨hx, hy, hms⟩ => ⟨hy, hx, hms⟩
  | .trans h h', hms => h'.everyReal (h.everyReal hms)

end

/-! ## Values that are read back, and values that are not read -/

mutual

/-- A value of which every double is read back is read back with its members sorted. -/
theorem reread?_of_finds : ∀ (v : Json) {depth : Nat}, v.EveryReal p.Finds → v.nesting ≤ depth →
    v.reread? p depth = some v.sorted
  | .null, _, _, _ => rfl
  | .bool _, _, _, _ => rfl
  | .integer _, _, _, _ => rfl
  | .real _ _, _, hv, _ => hv
  | .string _, _, _, _ => rfl
  | .array xs, depth + 1, hv, hdepth => by
    rw [reread?, rereadElements?_of_finds xs hv (Nat.le_of_succ_le_succ hdepth)]
    rfl
  | .object ms, depth + 1, hv, hdepth => by
    rw [reread?, rereadMembers?_of_finds ms hv (Nat.le_of_succ_le_succ hdepth)]
    rfl

theorem rereadElements?_of_finds : ∀ (xs : List Json) {depth : Nat}, EveryRealElements p.Finds xs →
    nestingElements xs ≤ depth → rereadElements? p depth xs = some (sortedElements xs)
  | [], _, _, _ => rfl
  | x :: xs, _, ⟨hx, hxs⟩, hdepth => by
    obtain ⟨hfirst, hothers⟩ := Nat.max_le.1 hdepth
    rw [rereadElements?, reread?_of_finds x hx hfirst, rereadElements?_of_finds xs hxs hothers]
    rfl

theorem rereadMembers?_of_finds : ∀ (ms : List (String × Json)) {depth : Nat},
    EveryRealMembers p.Finds ms → nestingMembers ms ≤ depth →
    rereadMembers? p depth ms = some (sortedMembers ms)
  | [], _, _, _ => rfl
  | (k, x) :: ms, _, ⟨hx, hms⟩, hdepth => by
    obtain ⟨hfirst, hothers⟩ := Nat.max_le.1 hdepth
    rw [rereadMembers?, reread?_of_finds x hx hfirst, rereadMembers?_of_finds ms hms hothers]
    rfl

end

mutual

/-- A value that is nested too deep is not read. -/
theorem reread?_of_nested : ∀ (v : Json) {depth : Nat}, depth < v.nesting →
    v.reread? p depth = none
  | .array _, 0, _ => rfl
  | .array xs, depth + 1, h => by
    rw [reread?, rereadElements?_of_nested xs (Nat.lt_of_succ_lt_succ h)]
    rfl
  | .object _, 0, _ => rfl
  | .object ms, depth + 1, h => by
    rw [reread?, rereadMembers?_of_nested ms (Nat.lt_of_succ_lt_succ h)]
    rfl

theorem rereadElements?_of_nested : ∀ (xs : List Json) {depth : Nat},
    depth < nestingElements xs → rereadElements? p depth xs = none
  | x :: xs, depth, h => by
    rw [rereadElements?]
    rcases lt_max_iff.1 h with h | h
    · rw [reread?_of_nested x h]
      rfl
    · rw [rereadElements?_of_nested xs h]
      cases x.reread? p depth <;> rfl

theorem rereadMembers?_of_nested : ∀ (ms : List (String × Json)) {depth : Nat},
    depth < nestingMembers ms → rereadMembers? p depth ms = none
  | (k, x) :: ms, depth, h => by
    rw [rereadMembers?]
    rcases lt_max_iff.1 h with h | h
    · rw [reread?_of_nested x h]
      rfl
    · rw [rereadMembers?_of_nested ms h]
      cases x.reread? p depth <;> rfl

end

/-! ## Values that are read as others -/

theorem rereadElements?_cons_eq_some {x : Json} {xs zs : List Json} :
    rereadElements? p depth (x :: xs) = some zs ↔
      ∃ y ys, x.reread? p depth = some y ∧ rereadElements? p depth xs = some ys ∧ y :: ys = zs := by
  simp [rereadElements?, Option.bind_eq_some_iff]

theorem rereadMembers?_cons_eq_some {k : String} {x : Json} {ms ls : List (String × Json)} :
    rereadMembers? p depth ((k, x) :: ms) = some ls ↔
      ∃ y ns, x.reread? p depth = some y ∧ rereadMembers? p depth ms = some ns ∧
        (k, y) :: ns = ls := by
  simp [rereadMembers?, Option.bind_eq_some_iff]

/-- The members that are read have the same names. -/
theorem map_fst_of_rereadMembers? {ms ns : List (String × Json)}
    (h : rereadMembers? p depth ms = some ns) : ns.map Prod.fst = ms.map Prod.fst := by
  induction ms generalizing ns with
  | nil =>
    obtain rfl := Option.some.inj h
    rfl
  | cons m ms ih =>
    obtain ⟨y, ns, -, hns, rfl⟩ := rereadMembers?_cons_eq_some.1 h
    rw [List.map_cons, List.map_cons, ih hns]

mutual

/-- What is read of the text of a value can be written again. -/
theorem wellFormed_of_reread? : ∀ (v : Json) {depth : Nat} {w : Json}, v.WellFormed →
    v.reread? p depth = some w → w.WellFormed
  | .null, _, _, hv, h => Option.some.inj h ▸ hv
  | .bool _, _, _, hv, h => Option.some.inj h ▸ hv
  | .integer _, _, _, hv, h => Option.some.inj h ▸ hv
  | .real _ _, _, _, _, h => by
    obtain ⟨b, rfl⟩ := exists_of_rereadReal? h
    trivial
  | .string _, _, _, hv, h => Option.some.inj h ▸ hv
  | .array xs, depth + 1, _, hv, h => by
    obtain ⟨ys, hys, rfl⟩ := Option.map_eq_some_iff.1 h
    exact wellFormed_of_rereadElements? xs hv hys
  | .object ms, depth + 1, _, ⟨hkeys, hms⟩, h => by
    obtain ⟨ns, hns, rfl⟩ := Option.map_eq_some_iff.1 h
    rw [← map_fst_of_rereadMembers? hns] at hkeys
    have hobject : (object ns).WellFormed := ⟨hkeys, wellFormed_of_rereadMembers? ms hms hns⟩
    exact ((alike_sortedObject hkeys).sorted_eq hobject).1

theorem wellFormed_of_rereadElements? : ∀ (xs : List Json) {depth : Nat} {ys : List Json},
    WellFormedElements xs → rereadElements? p depth xs = some ys → WellFormedElements ys
  | [], _, _, hxs, h => Option.some.inj h ▸ hxs
  | x :: xs, _, _, ⟨hx, hxs⟩, h => by
    obtain ⟨y, ys, hy, hys, rfl⟩ := rereadElements?_cons_eq_some.1 h
    exact ⟨wellFormed_of_reread? x hx hy, wellFormed_of_rereadElements? xs hxs hys⟩

theorem wellFormed_of_rereadMembers? : ∀ (ms : List (String × Json)) {depth : Nat}
    {ns : List (String × Json)}, WellFormedMembers ms → rereadMembers? p depth ms = some ns →
    WellFormedMembers ns
  | [], _, _, hms, h => Option.some.inj h ▸ hms
  | (k, x) :: ms, _, _, ⟨hx, hms⟩, h => by
    obtain ⟨y, ns, hy, hns, rfl⟩ := rereadMembers?_cons_eq_some.1 h
    exact ⟨wellFormed_of_reread? x hx hy, wellFormed_of_rereadMembers? ms hms hns⟩

end

mutual

/-- Where what is read is sorted into the same value, every double was read back. -/
theorem everyReal_of_reread? : ∀ (v : Json) {depth : Nat} {w : Json}, v.WellFormed →
    v.reread? p depth = some w → w.sorted = v.sorted → v.EveryReal p.Finds
  | .null, _, _, _, _, _ => trivial
  | .bool _, _, _, _, _, _ => trivial
  | .integer _, _, _, _, _, _ => trivial
  | .real s a, _, _, _, h, hsame => by
    obtain ⟨b, rfl⟩ := exists_of_rereadReal? h
    obtain rfl := (Json.real.inj hsame).2
    exact h
  | .string _, _, _, _, _, _ => trivial
  | .array xs, depth + 1, _, hv, h, hsame => by
    obtain ⟨ys, hys, rfl⟩ := Option.map_eq_some_iff.1 h
    exact everyReal_of_rereadElements? xs hv hys (Json.array.inj hsame)
  | .object ms, depth + 1, _, ⟨hkeys, hms⟩, h, hsame => by
    obtain ⟨ns, hns, rfl⟩ := Option.map_eq_some_iff.1 h
    have hnames := map_fst_of_rereadMembers? hns
    have hkeys' : (ns.map Prod.fst).Nodup := hnames ▸ hkeys
    have hobject : (object ns).WellFormed := ⟨hkeys', wellFormed_of_rereadMembers? ms hms hns⟩
    -- the members stand in one order before they are sorted, so that they agree one by one
    have hsorted : (object ns).sorted = (object ms).sorted :=
      ((alike_sortedObject hkeys').sorted_eq hobject).2.trans hsame
    refine everyReal_of_rereadMembers? ms hms hns
      (SortedMap.eq_of_ofList_eq ?_ ?_ (Json.object.inj hsorted))
    · rw [map_fst_sortedMembers, map_fst_sortedMembers, hnames]
    · rw [map_fst_sortedMembers]
      exact hkeys'

theorem everyReal_of_rereadElements? : ∀ (xs : List Json) {depth : Nat} {ys : List Json},
    WellFormedElements xs → rereadElements? p depth xs = some ys →
    sortedElements ys = sortedElements xs → EveryRealElements p.Finds xs
  | [], _, _, _, _, _ => trivial
  | x :: xs, _, _, ⟨hx, hxs⟩, h, hsame => by
    obtain ⟨y, ys, hy, hys, rfl⟩ := rereadElements?_cons_eq_some.1 h
    obtain ⟨hfirst, hothers⟩ := List.cons.inj hsame
    exact ⟨everyReal_of_reread? x hx hy hfirst, everyReal_of_rereadElements? xs hxs hys hothers⟩

theorem everyReal_of_rereadMembers? : ∀ (ms : List (String × Json)) {depth : Nat}
    {ns : List (String × Json)}, WellFormedMembers ms → rereadMembers? p depth ms = some ns →
    sortedMembers ns = sortedMembers ms → EveryRealMembers p.Finds ms
  | [], _, _, _, _, _ => trivial
  | (k, x) :: ms, _, _, ⟨hx, hms⟩, h, hsame => by
    obtain ⟨y, ns, hy, hns, rfl⟩ := rereadMembers?_cons_eq_some.1 h
    obtain ⟨hfirst, hothers⟩ := List.cons.inj hsame
    exact ⟨everyReal_of_reread? x hx hy (Prod.mk.inj hfirst).2,
      everyReal_of_rereadMembers? ms hms hns hothers⟩

end

/-- The values that are read as one like them are those that are nested no deeper than the reader
    allows and of which it finds every double again. -/
theorem alike_reread?_iff (p : Precision) (depth : Nat) {v : Json} (hv : v.WellFormed) :
    (∃ w, v.reread? p depth = some w ∧ Alike v w) ↔ v.nesting ≤ depth ∧ v.EveryReal p.Finds := by
  constructor
  · rintro ⟨w, hw, halike⟩
    refine ⟨?_, everyReal_of_reread? v hv hw (halike.sorted_eq hv).2.symm⟩
    by_contra hdeep
    rw [reread?_of_nested v (Nat.not_le.1 hdeep)] at hw
    cases hw
  · rintro ⟨hdepth, hfinds⟩
    exact ⟨v.sorted, reread?_of_finds v hfinds hdepth, alike_sorted v hv⟩

end WitnessLedger.Json
