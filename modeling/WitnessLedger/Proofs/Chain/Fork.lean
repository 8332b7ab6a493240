import WitnessLedger.Chain.Fork
import WitnessLedger.Proofs.Text.Order
import Mathlib.Data.Prod.Lex
import Mathlib.Data.List.Nodup
import Mathlib.Data.List.Perm.Basic
import Mathlib.Order.Lattice

/-!
# Winners of forks

A rule that breaks ties compares candidates by a key: their age and then their id, or their id
alone.  Both are linear orders, so that a leader whose key is lowest is the winner.  Where ids are
different there is only one of these, and no order of the candidates makes it another.

## Key results

- `Fork.leaders_eq_leading`: the leaders are the candidates that no other one has more votes than
- `Fork.first_spec`: the first of some entries is among them, and none has a lower key
- `Fork.resolve_earliest`, `Fork.resolve_lowest`, `Fork.resolve_manual`: what a rule does on a tie
- `Fork.resolve_perm`: the order of the candidates does not matter
- `Fork.resolve_spec`: the winner among any candidates, whatever their order
-/

namespace WitnessLedger

namespace Instant

/-- The place of a moment among all moments: its seconds, and within a second its fraction. -/
def place (t : Instant) : Int ×ₗ Nat := toLex (t.seconds, t.nanos)

theorem place_inj {a b : Instant} : a.place = b.place ↔ a = b := by
  constructor
  · intro h
    obtain ⟨hseconds, hnanos⟩ := Prod.mk.inj (toLex.injective h)
    cases a
    cases b
    cases hseconds
    cases hnanos
    rfl
  · rintro rfl
    rfl

theorem le_iff_place {a b : Instant} : a.le b = true ↔ a.place ≤ b.place := by
  rw [place, place, Prod.Lex.toLex_le_toLex, Instant.le, Bool.or_eq_true, Bool.and_eq_true,
    decide_eq_true_iff, decide_eq_true_iff, beq_iff_eq]

end Instant

namespace Fork

/-- The candidates that no other one has more accepting votes than, in their order. -/
def leading (candidates : List Entry) : List Entry :=
  candidates.filter fun e => ∀ x ∈ candidates, x.accepts ≤ e.accepts

/-- Whether an entry is one of several and none of them is older, nor of the same age with an id
    whose bytes are lower. -/
structure IsEarliest (w : Entry) (es : List Entry) : Prop where
  mem : w ∈ es
  time_le : ∀ x ∈ es, w.timestamp.le x.timestamp = true
  id_le : ∀ x ∈ es, x.timestamp = w.timestamp → Text.bytes w.id ≤ Text.bytes x.id

/-- Whether an entry is one of several and none of them has an id whose bytes are lower. -/
structure IsLowest (w : Entry) (es : List Entry) : Prop where
  mem : w ∈ es
  id_le : ∀ x ∈ es, Text.bytes w.id ≤ Text.bytes x.id

/-- Whether two outcomes are the same, or ties between the same entries in another order. -/
inductive SameUpToOrder : Except LedgerError Entry → Except LedgerError Entry → Prop where
  | same (r) : SameUpToOrder r r
  | tie {ids ids' : List String} (h : ids.Perm ids') :
      SameUpToOrder (.error (.forkTie ids)) (.error (.forkTie ids'))

variable {cs cs' : List Entry}

/-! ## Leaders -/

/-- The most accepting votes are those of a candidate, and no other one has more. -/
theorem mostAccepts_spec (h : cs ≠ []) :
    (∃ e ∈ cs, e.accepts = mostAccepts cs) ∧ ∀ x ∈ cs, x.accepts ≤ mostAccepts cs := by
  obtain ⟨most, hmost⟩ := Option.ne_none_iff_exists'.1
    (mt List.max?_eq_none_iff.1 (mt List.map_eq_nil_iff.1 h) :
      (cs.map (·.accepts)).max? ≠ none)
  have heq : mostAccepts cs = most := by
    rw [mostAccepts, List.foldl_max, hmost, Option.getD_some, Nat.zero_max]
  obtain ⟨hmem, hle⟩ := List.max?_eq_some_iff.1 hmost
  rw [heq]
  exact ⟨List.mem_map.1 hmem, fun x hx => hle _ (List.mem_map_of_mem hx)⟩

/-- The leaders are the candidates that no other one has more accepting votes than. -/
theorem leaders_eq_leading (cs : List Entry) : leaders cs = leading cs := by
  refine List.filter_congr fun e he => ?_
  obtain ⟨⟨m, hm, hmost⟩, hle⟩ := mostAccepts_spec (List.ne_nil_of_mem he)
  have hiff : e.accepts = mostAccepts cs ↔ ∀ x ∈ cs, x.accepts ≤ e.accepts := by
    constructor
    · intro heq x hx
      rw [heq]
      exact hle x hx
    · intro hall
      exact Nat.le_antisymm (hle e he) (hmost ▸ hall m hm)
  rw [beq_eq_decide, decide_eq_decide]
  exact hiff

theorem leading_ne_nil (h : cs ≠ []) : leading cs ≠ [] := by
  obtain ⟨⟨m, hm, hmost⟩, hle⟩ := mostAccepts_spec h
  refine List.ne_nil_of_mem (a := m) (List.mem_filter.2 ⟨hm, decide_eq_true fun x hx => ?_⟩)
  rw [hmost]
  exact hle x hx

/-- Of any candidates one leads alone, or there is a tie. -/
theorem leading_cases (h : cs ≠ []) :
    (∃ e, leading cs = [e]) ∨ 2 ≤ (leading cs).length := by
  have hpos : 0 < (leading cs).length := List.length_pos_iff.2 (leading_ne_nil h)
  rcases Nat.lt_or_ge (leading cs).length 2 with hfew | hmany
  · exact .inl (List.length_eq_one_iff.1 (Nat.le_antisymm (Nat.le_of_lt_succ hfew) hpos))
  · exact .inr hmany

theorem mem_of_mem_leading {e : Entry} (h : e ∈ leading cs) : e ∈ cs := (List.mem_filter.1 h).1

/-- The candidates in another order have the same leaders, in another order. -/
theorem leading_perm (h : cs.Perm cs') : (leading cs).Perm (leading cs') := by
  have hsame : leading cs' = cs'.filter fun e => ∀ x ∈ cs, x.accepts ≤ e.accepts :=
    List.filter_congr fun e _ => decide_eq_decide.2 (forall_congr' fun x => by rw [h.mem_iff])
  rw [hsame]
  exact h.filter _

/-! ## The first of some entries -/

/-- The first of some entries is among them, and none has a lower key. -/
theorem first_spec {α : Type} [LinearOrder α] {before : Entry → Entry → Bool} {key : Entry → α}
    (hkey : ∀ a b, before a b = true ↔ key a < key b) (e : Entry) (rest : List Entry) :
    first before e rest ∈ e :: rest ∧ ∀ x ∈ e :: rest, key (first before e rest) ≤ key x := by
  induction rest generalizing e with
  | nil => exact ⟨List.mem_singleton_self e, fun x hx => by rw [List.mem_singleton.1 hx]; rfl⟩
  | cons y rest ih =>
    -- the better one of the first two goes on
    obtain ⟨hmem, hle⟩ := ih (if before y e then y else e)
    have hcons : first before e (y :: rest) = first before (if before y e then y else e) rest := rfl
    have hbest : (if before y e then y else e) ∈ [e, y] ∧
        key (if before y e then y else e) ≤ key e ∧ key (if before y e then y else e) ≤ key y := by
      split
      · next hlt => exact ⟨by simp, ((hkey y e).1 hlt).le, le_rfl⟩
      · next hnot => exact ⟨by simp, le_rfl, not_lt.1 (mt (hkey y e).2 hnot)⟩
    rw [hcons]
    obtain ⟨hin, hfst, hsnd⟩ := hbest
    refine ⟨?_, ?_⟩
    · rcases List.mem_cons.1 hmem with heq | hrest
      · rw [heq]
        exact List.mem_append_left rest hin
      · exact List.mem_cons_of_mem e (List.mem_cons_of_mem y hrest)
    · intro x hx
      have hhead := hle _ (List.mem_cons_self ..)
      rcases List.mem_cons.1 hx with rfl | hx
      · exact hhead.trans hfst
      rcases List.mem_cons.1 hx with rfl | hx
      · exact hhead.trans hsnd
      · exact hle x (List.mem_cons_of_mem _ hx)

/-- The oldest goes first, and of the same age the one with the lowest id. -/
theorem earliest_before (a b : Entry) : ForkRule.earliestTimestamp.before a b = true ↔
    toLex (a.timestamp.place, a.id) < toLex (b.timestamp.place, b.id) := by
  rw [Prod.Lex.toLex_lt_toLex, ForkRule.before]
  split
  · next heq => simp [heq]
  · next hne => simp [hne, Instant.le_iff_place, Instant.place_inj, le_iff_lt_or_eq]

theorem lowest_before (a b : Entry) :
    ForkRule.lowestEntryId.before a b = true ↔ a.id < b.id := decide_eq_true_iff

/-! ## Winners -/

/-- Without candidates there is no winner, whatever the rule. -/
theorem resolve_nil (rule : ForkRule) : resolve rule [] = .error (.validation .noCandidates) := rfl

/-- A single leader wins, whatever the rule. -/
theorem resolve_single {e : Entry} (h : leading cs = [e]) (rule : ForkRule) :
    resolve rule cs = .ok e := by
  rw [resolve, leaders_eq_leading, h]

/-- Of several leaders the first by the order of the rule wins. -/
theorem exists_resolve_tie (h : 2 ≤ (leading cs).length) :
    ∃ e rest, leading cs = e :: rest ∧
      resolve .earliestTimestamp cs = .ok (first ForkRule.earliestTimestamp.before e rest) ∧
      resolve .lowestEntryId cs = .ok (first ForkRule.lowestEntryId.before e rest) ∧
      resolve .manual cs = .error (.forkTie ((e :: rest).map (·.id))) := by
  obtain ⟨e, x, rest, hleading⟩ : ∃ e x rest, leading cs = e :: x :: rest := by
    match hleading : leading cs with
    | [] | [_] => simp [hleading] at h
    | e :: x :: rest => exact ⟨e, x, rest, rfl⟩
  refine ⟨e, x :: rest, hleading, ?_, ?_, ?_⟩ <;>
    simp only [resolve, leaders_eq_leading, hleading]

/-- On a tie the earliest of the leaders wins, if age counts. -/
theorem resolve_earliest (h : 2 ≤ (leading cs).length) :
    ∃ w, IsEarliest w (leading cs) ∧ resolve .earliestTimestamp cs = .ok w := by
  obtain ⟨e, rest, hleading, hresolve, -⟩ := exists_resolve_tie h
  obtain ⟨hmem, hle⟩ := first_spec earliest_before e rest
  refine ⟨_, ⟨?_, fun x hx => ?_, fun x hx heq => ?_⟩, hresolve⟩
  · rw [hleading]
    exact hmem
  · rw [hleading] at hx
    exact Instant.le_iff_place.2 (Prod.Lex.monotone_fst _ _ (hle x hx))
  · rw [hleading] at hx
    have hplace := Instant.place_inj.2 heq.symm
    exact Text.bytes_le_bytes_iff.2 ((Prod.Lex.toLex_le_toLex'.1 (hle x hx)).2 hplace)

/-- On a tie the leader with the lowest id wins, if the id counts. -/
theorem resolve_lowest (h : 2 ≤ (leading cs).length) :
    ∃ w, IsLowest w (leading cs) ∧ resolve .lowestEntryId cs = .ok w := by
  obtain ⟨e, rest, hleading, -, hresolve, -⟩ := exists_resolve_tie h
  obtain ⟨hmem, hle⟩ := first_spec lowest_before e rest
  rw [hleading]
  exact ⟨_, ⟨hmem, fun x hx => Text.bytes_le_bytes_iff.2 (hle x hx)⟩, hresolve⟩

/-- On a tie that is left to people, the leaders are reported. -/
theorem resolve_manual (h : 2 ≤ (leading cs).length) :
    resolve .manual cs = .error (.forkTie ((leading cs).map (·.id))) := by
  obtain ⟨e, rest, hleading, -, -, hresolve⟩ := exists_resolve_tie h
  rw [hleading]
  exact hresolve

/-- Only a missing candidate makes the request invalid. -/
theorem resolve_invalid_iff (rule : ForkRule) :
    (∃ why, resolve rule cs = .error (.validation why)) ↔ cs = [] := by
  constructor
  · rintro ⟨why, hresolve⟩
    by_contra hne
    -- a single leader wins, and of several one wins or all are reported
    rcases leading_cases hne with ⟨e, hleading⟩ | hmany
    · cases (resolve_single hleading rule).symm.trans hresolve
    · obtain ⟨e, rest, -, hearliest, hlowest, hmanual⟩ := exists_resolve_tie hmany
      cases rule with
      | earliestTimestamp => cases hearliest.symm.trans hresolve
      | lowestEntryId => cases hlowest.symm.trans hresolve
      | manual => cases hmanual.symm.trans hresolve
  · rintro rfl
    exact ⟨_, resolve_nil rule⟩

/-! ## Order of the candidates -/

/-- The lowest of the same entries, in whatever order, have the same id. -/
theorem IsLowest.id_eq {w w' : Entry} {es es' : List Entry} (h : IsLowest w es)
    (h' : IsLowest w' es') (hsame : ∀ x, x ∈ es ↔ x ∈ es') : w.id = w'.id :=
  String.le_antisymm
    (Text.bytes_le_bytes_iff.1 (h.id_le w' ((hsame w').2 h'.mem)))
    (Text.bytes_le_bytes_iff.1 (h'.id_le w ((hsame w).1 h.mem)))

/-- The earliest of the same entries, in whatever order, have the same id. -/
theorem IsEarliest.id_eq {w w' : Entry} {es es' : List Entry} (h : IsEarliest w es)
    (h' : IsEarliest w' es') (hsame : ∀ x, x ∈ es ↔ x ∈ es') : w.id = w'.id := by
  have hw := (hsame w).1 h.mem
  have hw' := (hsame w').2 h'.mem
  have htime : w.timestamp = w'.timestamp :=
    Instant.place_inj.1 (le_antisymm (Instant.le_iff_place.1 (h.time_le w' hw'))
      (Instant.le_iff_place.1 (h'.time_le w hw)))
  exact String.le_antisymm
    (Text.bytes_le_bytes_iff.1 (h.id_le w' hw' htime.symm))
    (Text.bytes_le_bytes_iff.1 (h'.id_le w hw htime))

/-- Where the candidates have different ids, no order of them changes the outcome, but for the
    order in which a tie is reported. -/
theorem resolve_perm (hperm : cs.Perm cs') (hids : (cs.map (·.id)).Nodup) (rule : ForkRule) :
    SameUpToOrder (resolve rule cs) (resolve rule cs') := by
  have hleading := leading_perm hperm
  -- winners are compared by their ids, which tell the candidates apart
  have heq : ∀ {w w'}, w ∈ leading cs → w' ∈ leading cs' → w.id = w'.id → w = w' := by
    intro w w' hw hw' hid
    exact List.inj_on_of_nodup_map hids (mem_of_mem_leading hw)
      (mem_of_mem_leading (hleading.mem_iff.2 hw')) hid
  rcases eq_or_ne cs [] with rfl | hne
  · rw [List.nil_perm.1 hperm]
    exact .same _
  rcases leading_cases hne with ⟨e, hcases⟩ | hmany
  · rw [hcases] at hleading
    rw [resolve_single hcases, resolve_single (List.singleton_perm.1 hleading).symm]
    exact .same _
  · have hmany' : 2 ≤ (leading cs').length := hleading.length_eq ▸ hmany
    cases rule with
    | earliestTimestamp =>
      obtain ⟨w, hw, hresolve⟩ := resolve_earliest hmany
      obtain ⟨w', hw', hresolve'⟩ := resolve_earliest hmany'
      rw [hresolve, hresolve', heq hw.mem hw'.mem (hw.id_eq hw' fun x => hleading.mem_iff)]
      exact .same _
    | lowestEntryId =>
      obtain ⟨w, hw, hresolve⟩ := resolve_lowest hmany
      obtain ⟨w', hw', hresolve'⟩ := resolve_lowest hmany'
      rw [hresolve, hresolve', heq hw.mem hw'.mem (hw.id_eq hw' fun x => hleading.mem_iff)]
      exact .same _
    | manual =>
      rw [resolve_manual hmany, resolve_manual hmany']
      exact .tie (hleading.map _)

/-- The winner among any candidates.  The request is invalid exactly if there are none.  A single
    leader wins under every rule.  On a tie the earliest of the leaders wins, or the one with the
    lowest id, or the ids of the leaders are reported in the order of the candidates, as the rule
    says.  Where the candidates have different ids, any other order of them gives the same outcome,
    but for the order in which a tie is reported. -/
theorem resolve_spec (cs : List Entry) :
    (∀ rule, (∃ why, resolve rule cs = .error (.validation why)) ↔ cs = []) ∧
      (∀ e rule, leading cs = [e] → resolve rule cs = .ok e) ∧
      (2 ≤ (leading cs).length →
        (∃ w, IsEarliest w (leading cs) ∧ resolve .earliestTimestamp cs = .ok w) ∧
        (∃ w, IsLowest w (leading cs) ∧ resolve .lowestEntryId cs = .ok w) ∧
        resolve .manual cs = .error (.forkTie ((leading cs).map (·.id)))) ∧
      ((cs.map (·.id)).Nodup → ∀ cs' rule, cs.Perm cs' →
        SameUpToOrder (resolve rule cs) (resolve rule cs')) :=
  ⟨resolve_invalid_iff, fun _ rule h => resolve_single h rule,
    fun h => ⟨resolve_earliest h, resolve_lowest h, resolve_manual h⟩,
    fun hids _ rule hperm => resolve_perm hperm hids rule⟩

/-- A candidate of the first moment with the accepting votes of some witnesses. -/
def candidate (id : String) (witnesses : List String) : Entry :=
  let content := .plain (.credentialIssuance ⟨"lct:a", "lct:b", "member"⟩)
  witnesses.foldl (fun e w => e.withVote (.cast w id true none .epoch))
    (.new id .credentialIssuance .root content .zero .epoch)

/-- Three candidates of one age, of which the first two have the same votes, and the three in the
    opposite order. -/
theorem resolve_spec_sameAge :
    let tied := [candidate "e2" ["w1"], candidate "e1" ["w2"], candidate "e0" []]
    2 ≤ (leading tied).length ∧ (tied.map (·.id)).Nodup ∧ tied.Perm tied.reverse ∧
      (∃ w, IsEarliest w (leading tied) ∧ resolve .earliestTimestamp tied = .ok w) ∧
      resolve .manual tied = .error (.forkTie ["e2", "e1"]) ∧
      (∀ rule, SameUpToOrder (resolve rule tied) (resolve rule tied.reverse)) ∧
      resolve .manual [candidate "e0" [], candidate "e1" ["w2"]] = .ok (candidate "e1" ["w2"]) := by
  intro tied
  have htie : 2 ≤ (leading tied).length := by decide +kernel
  have hids : (tied.map (·.id)).Nodup := by decide +kernel
  have hperm : tied.Perm tied.reverse := (List.reverse_perm tied).symm
  have hleaders : (leading tied).map (·.id) = ["e2", "e1"] := by decide +kernel
  have hsingle : leading [candidate "e0" [], candidate "e1" ["w2"]] = [candidate "e1" ["w2"]] := by
    decide +kernel
  obtain ⟨-, -, hwinners, horder⟩ := resolve_spec tied
  obtain ⟨hearliest, -, hmanual⟩ := hwinners htie
  rw [hleaders] at hmanual
  exact ⟨htie, hids, hperm, hearliest, hmanual, fun rule => horder hids _ rule hperm,
    (resolve_spec _).2.1 _ _ hsingle⟩

end Fork

end WitnessLedger
