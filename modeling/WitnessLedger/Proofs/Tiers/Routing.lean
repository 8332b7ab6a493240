import Mathlib.Data.List.Nodup
import WitnessLedger.Proofs.Chain.Standing
import WitnessLedger.Proofs.Tiers.History

/-!
# Routing by score

After any run the tiers hold what its operations alone say: each entry that was taken in is on the
level that its total leads to, the compost holds the last ones, and each step up is logged.

## Key results

- `level_of`: the level of new content depends on its total only, which a cost never enters
- `Routed.ingest_eq`: content is taken in as the operations before it say
- `Routed.promoteToRoot_eq`: proposing an entry to a chain never fails
- `Routed.act`: an operation keeps the tiers what the operations say
- `routed_run`: the tiers after any run
- `routing_run`: all that operations on the tiers answer and leave, by the operations before them
-/

namespace WitnessLedger

namespace Tiers

/-! ## Operations -/

/-- The tiers after an operation. -/
def act (t : Tiers) : Action → Tiers
  | .ingest now suffix kind content => Run.stateAfter t (t.ingest now suffix kind content)
  | .promoteToRoot chain now suffix id =>
    Run.stateAfter t ((t.promoteToRoot chain now suffix id).map fun r => (r.1, r.2.1))
  | .resetNovelty => t.resetNovelty

/-- The tiers after a run. -/
def run (t : Tiers) (as : List Action) : Tiers := as.foldl act t

/-- The entry that taking content in returns. -/
def returns (t : Tiers) : Action → List Entry
  | .ingest now suffix kind content =>
    match t.ingest now suffix kind content with
    | .ok (e, _) => [e]
    | .error _ => []
  | _ => []

/-- The entries that a run takes in, in order. -/
def ingested (t : Tiers) (as : List Action) : List Entry := Run.chronicle act returns t as

theorem run_concat (t : Tiers) (as : List Action) (a : Action) :
    t.run (as ++ [a]) = (t.run as).act a := List.foldl_append

/-! ## Totals and levels -/

/-- The total that new content scores.  An entry has no cost yet, so that it is never significant. -/
theorem total_of {novelty : Novelty} {as : List Action} {kind : EntryKind} {content : Content}
    (significance : Nat) (scope : SortedSet)
    (hseen : novelty.hasSeen kind content.subtype = wasSeen as kind content.subtype) :
    (Score.of significance scope novelty kind content Level.compost.cost).total =
      UInt32.ofNat (totalAfter scope as kind content) := by
  have hcost : ¬ significance < Level.compost.cost := Nat.not_lt_zero _
  simp only [Score.total, Score.of, totalAfter, hseen, hcost, if_false]
  split <;> split <;> split <;> split <;> rfl

/-- The level of new content depends on its total only. -/
theorem level_of {novelty : Novelty} {as : List Action} {kind : EntryKind} {content : Content}
    (significance : Nat) (scope : SortedSet)
    (hseen : novelty.hasSeen kind content.subtype = wasSeen as kind content.subtype) :
    (Score.of significance scope novelty kind content Level.compost.cost).level =
      levelFor (totalAfter scope as kind content) := by
  have htotal := total_of significance scope hseen
  have hlevel : ∀ n ≤ 8,
      (if Score.promoteTotal ≤ UInt32.ofNat n then Level.stem
        else if Score.retainTotal ≤ UInt32.ofNat n then .leaf else .compost) = levelFor n := by
    decide
  simpa only [Score.level, Score.shouldPromote, Score.shouldRetain, htotal, decide_eq_true_eq]
    using hlevel _ (totalAfter_le scope as kind content)

/-! ## What has been seen -/

theorem hasSeen_iff {n : Novelty} {kind : EntryKind} {subtype : Option String} :
    n.hasSeen kind subtype = true ↔ (kind, subtype) ∈ n.seen :=
  List.contains_iff_mem

/-- Taking note of a kind with a subtype adds it to what has been seen. -/
theorem hasSeen_insert (n : Novelty) (k kind : EntryKind) (s subtype : Option String) :
    (n.insert k s).hasSeen kind subtype =
      ((k == kind && s == subtype) || n.hasSeen kind subtype) := by
  rw [Bool.eq_iff_iff]
  simp only [Bool.or_eq_true, Bool.and_eq_true, beq_iff_eq, hasSeen_iff]
  unfold Novelty.insert
  split
  · next h =>
    constructor
    · exact Or.inr
    · rintro (⟨rfl, rfl⟩ | hmem)
      · exact hasSeen_iff.1 h
      · exact hmem
  · rw [List.mem_append, List.mem_singleton, Prod.mk.injEq, or_comm, eq_comm (a := kind),
      eq_comm (a := subtype)]

/-- The last ones of a list and one more are the last ones of the longer list. -/
theorem lastOf_concat (capacity : Nat) (es : List Entry) (e : Entry) :
    lastOf capacity (lastOf capacity es ++ [e]) = lastOf capacity (es ++ [e]) := by
  have hdrop : lastOf capacity es ++ [e] = (es ++ [e]).drop (es.length - capacity) := by
    rw [List.drop_append_of_le_length (Nat.sub_le ..), lastOf]
  rw [hdrop, lastOf, lastOf, List.drop_drop, List.length_drop, List.length_append]
  congr 1
  rw [List.length_singleton]
  omega

/-! ## What the tiers hold -/

/-- The tiers hold what some operations say. -/
structure Routed (capacity : Nat) (scope : SortedSet) (as : List Action) (t : Tiers) : Prop where
  capacity_eq : t.capacity = max 1 capacity
  scope_eq : t.scope = scope
  seen : ∀ kind subtype, t.novelty.hasSeen kind subtype = wasSeen as kind subtype
  stem : t.stem = (taken capacity scope as).filter (·.level == .stem)
  leaf : t.leaf = (taken capacity scope as).filter (·.level == .leaf)
  compost : t.compost = lastOf (max 1 capacity) (taken capacity scope as)
  promotions : t.promotions = logged capacity scope as

variable {capacity : Nat} {scope : SortedSet} {as : List Action} {t : Tiers}

theorem Routed.length_compost (h : Routed capacity scope as t) :
    t.compost.length = compostSize capacity as := by
  rw [h.compost, lastOf, List.length_drop, length_taken, compostSize]
  omega

/-- An operation that takes nothing in and forgets nothing only logs. -/
theorem Routed.of_quiet (h : Routed capacity scope as t) {a : Action}
    (htaken : takenBy capacity scope as a = []) (hreset : a.isReset = false)
    (hseen : ∀ kind subtype, a.takesIn kind subtype = false) :
    Routed capacity scope (as ++ [a])
      { t with promotions := t.promotions ++ loggedBy capacity scope as a } := by
  constructor
  case capacity_eq => exact h.capacity_eq
  case scope_eq => exact h.scope_eq
  case seen =>
    intro kind subtype
    rw [wasSeen_concat, hreset, hseen, if_neg Bool.false_ne_true, Bool.false_or]
    exact h.seen kind subtype
  case stem => rw [taken_concat, htaken, List.append_nil]; exact h.stem
  case leaf => rw [taken_concat, htaken, List.append_nil]; exact h.leaf
  case compost => rw [taken_concat, htaken, List.append_nil]; exact h.compost
  case promotions => rw [logged_concat, h.promotions]

/-- The tiers after an entry of a total has been taken in: it is added to the compost and to the
    level that the total leads to, and the step to that level is logged. -/
def takeIn (t : Tiers) (now : Instant) (e : Entry) (total : Nat) : Tiers :=
  { t with
    stem := t.stem ++ if levelFor total == .stem then [e] else []
    leaf := t.leaf ++ if levelFor total == .leaf then [e] else []
    compost := lastOf t.capacity (t.compost ++ [e])
    novelty := t.novelty.insert e.kind e.content.subtype
    promotions := t.promotions ++
      if 3 ≤ total then
        [{ entryId := e.id, rootEntryId := none, source := .compost, target := levelFor total
           total := some (UInt32.ofNat total), timestamp := now }]
      else [] }

theorem place_eq (t : Tiers) (now : Instant) (e : Entry) {score : Score} {total : Nat}
    (hlevel : score.level = levelFor total) (htotal : score.total = UInt32.ofNat total) :
    { t.place now e score with
      compost := lastOf t.capacity (t.compost ++ [e])
      novelty := t.novelty.insert e.kind e.content.subtype } = t.takeIn now e total := by
  unfold place promotionTo takeIn
  rw [hlevel, htotal]
  by_cases hstem : 5 ≤ total
  · have hleaf : 3 ≤ total := by omega
    have hlevel : levelFor total = .stem := by rw [levelFor, if_pos hstem]
    simp [hlevel, hleaf]
  · by_cases hleaf : 3 ≤ total
    · have hlevel : levelFor total = .leaf := by rw [levelFor, if_neg hstem, if_pos hleaf]
      simp [hlevel, hleaf]
    · have hlevel : levelFor total = .compost := by rw [levelFor, if_neg hstem, if_neg hleaf]
      simp [hlevel, hleaf]

/-- Content that is admitted is taken in with the entry and the total that the operations before it
    say. -/
theorem Routed.ingest_eq (h : Routed capacity scope as t) (now : Readings) (suffix : String)
    {kind : EntryKind} {content : Content} (hfit : content.admit kind = .ok ()) :
    t.ingest now suffix kind content =
      .ok (entryAfter capacity scope as now.entry suffix kind content,
        t.takeIn now.record (entryAfter capacity scope as now.entry suffix kind content)
          (totalAfter scope as kind content)) := by
  obtain rfl := h.scope_eq
  have hseen := h.seen kind content.subtype
  have hlevel := level_of t.significance t.scope hseen
  have htotal := total_of t.significance t.scope hseen
  have he : atLevel (t.draft now.entry suffix kind content)
      (levelFor (totalAfter t.scope as kind content)) =
      entryAfter capacity t.scope as now.entry suffix kind content := by
    rw [entryAfter, ← h.length_compost]
    rfl
  rw [← place_eq t now.record _ hlevel htotal]
  simp only [ingest, hfit, hlevel, he]
  rfl

/-- The tiers after that are what the operations say, with this one. -/
theorem Routed.takeIn (h : Routed capacity scope as t) (now : Readings) (suffix : String)
    {kind : EntryKind} {content : Content} (hsuits : content.suits kind = true) :
    Routed capacity scope (as ++ [.ingest now suffix kind content])
      (t.takeIn now.record (entryAfter capacity scope as now.entry suffix kind content)
        (totalAfter scope as kind content)) := by
  have htaken : takenBy capacity scope as (.ingest now suffix kind content) =
      [entryAfter capacity scope as now.entry suffix kind content] := if_pos hsuits
  constructor
  case capacity_eq => exact h.capacity_eq
  case scope_eq => exact h.scope_eq
  case seen =>
    intro k subtype
    have hkept : (Action.ingest now suffix kind content).isReset = false := rfl
    rw [wasSeen_concat, hkept, if_neg Bool.false_ne_true, Action.takesIn, hsuits, Bool.true_and,
      ← h.seen]
    exact hasSeen_insert ..
  case stem =>
    rw [taken_concat, htaken, List.filter_append, ← h.stem, List.filter_singleton,
      Bool.cond_eq_ite]
    rfl
  case leaf =>
    rw [taken_concat, htaken, List.filter_append, ← h.leaf, List.filter_singleton,
      Bool.cond_eq_ite]
    rfl
  case compost =>
    rw [taken_concat, htaken, ← lastOf_concat, ← h.compost, ← h.capacity_eq]
    rfl
  case promotions =>
    rw [logged_concat, ← h.promotions, loggedBy, hsuits, Bool.true_and]
    simp only [decide_eq_true_eq]
    rfl

/-- What is proposed to a chain for an entry of the stem: its content, on the root level. -/
def proposal (t : Tiers) (chain : Chain) (now : Instant) (suffix id : String) : Option Entry :=
  (t.stem.find? fun e => e.id == id).map fun e => chain.draft now suffix e.kind e.content .root

theorem isSome_proposal {chain : Chain} {now : Instant} {suffix id : String} :
    (t.proposal chain now suffix id).isSome = true ↔ ∃ e ∈ t.stem, e.id = id := by
  simp only [proposal, Option.isSome_map, List.find?_isSome, beq_iff_eq]

/-- The step up is logged exactly if there is a proposal. -/
theorem Routed.loggedBy_promoteToRoot (h : Routed capacity scope as t) (chain : Chain)
    (now : Readings) (suffix id : String) :
    loggedBy capacity scope as (.promoteToRoot chain now suffix id) =
      (t.proposal chain now.entry suffix id).toList.map (stepToRoot now.record id) := by
  have hfound : (t.stem.find? fun e => e.id == id) =
      (taken capacity scope as).find? fun e => e.level == .stem && e.id == id := by
    rw [h.stem, List.find?_filter]
    congr 1
    funext e
    simp only [Bool.decide_and, Bool.decide_eq_true]
  rw [proposal, hfound, loggedBy]
  cases (taken capacity scope as).find? fun e => e.level == .stem && e.id == id <;> rfl

/-- Proposing an entry to a chain never fails, because what is on the stem was admitted before.
    The proposal is added to the chain. -/
theorem Routed.promoteToRoot_eq (h : Routed capacity scope as t) (chain : Chain)
    (now : Readings) (suffix id : String) :
    t.promoteToRoot chain now suffix id =
      .ok (t.proposal chain now.entry suffix id,
        { t with promotions := t.promotions ++
            (t.proposal chain now.entry suffix id).toList.map (stepToRoot now.record id) },
        ((t.proposal chain now.entry suffix id).map chain.push).getD chain) := by
  rw [promoteToRoot, proposal]
  cases hroot : t.stem.find? fun e => e.id == id with
  | none => simp only [Option.map_none, Option.toList, List.map_nil, List.append_nil, Option.getD]
  | some e =>
    have hmem : e ∈ taken capacity scope as :=
      List.mem_of_mem_filter (h.stem ▸ List.mem_of_find?_eq_some hroot)
    simp only [Chain.propose_of_admit (c := chain) now.entry suffix .root
      (admit_of_mem_taken hmem)]
    rfl

/-- An operation keeps the tiers what the operations say. -/
theorem Routed.act (h : Routed capacity scope as t) (a : Action) :
    Routed capacity scope (as ++ [a]) (t.act a) := by
  cases a with
  | ingest now suffix kind content =>
    cases hfit : content.admit kind with
    | ok u =>
      rw [Tiers.act, h.ingest_eq now suffix hfit]
      exact h.takeIn now suffix (Content.suits_iff.2 hfit)
    | error err =>
      have hno : content.suits kind = false := Content.suits_of_error hfit
      have hquiet := h.of_quiet (a := .ingest now suffix kind content)
        (by rw [takenBy, hno, if_neg Bool.false_ne_true]) rfl
        (fun k subtype => by rw [Action.takesIn, hno, Bool.false_and, Bool.false_and])
      rw [loggedBy, hno, Bool.false_and, if_neg Bool.false_ne_true, List.append_nil] at hquiet
      rw [Tiers.act, ingest, hfit]
      exact hquiet
  | promoteToRoot chain now suffix id =>
    have hquiet := h.of_quiet (a := .promoteToRoot chain now suffix id) rfl rfl fun _ _ => rfl
    rw [h.loggedBy_promoteToRoot] at hquiet
    rw [Tiers.act, h.promoteToRoot_eq]
    exact hquiet
  | resetNovelty =>
    have hnone : takenBy capacity scope as .resetNovelty = [] := rfl
    constructor
    case capacity_eq => exact h.capacity_eq
    case scope_eq => exact h.scope_eq
    case seen =>
      intro kind subtype
      rw [wasSeen_concat]
      rfl
    case stem => rw [taken_concat, hnone, List.append_nil]; exact h.stem
    case leaf => rw [taken_concat, hnone, List.append_nil]; exact h.leaf
    case compost => rw [taken_concat, hnone, List.append_nil]; exact h.compost
    case promotions => rw [logged_concat, loggedBy, List.append_nil]; exact h.promotions

theorem routed_run (capacity significance : Nat) (scope : SortedSet) (as : List Action) :
    Routed capacity scope as ((new capacity significance scope).run as) := by
  induction as using List.reverseRecOn with
  | nil => exact ⟨Nat.max_comm .., rfl, fun _ _ => rfl, rfl, rfl, List.drop_nil.symm, rfl⟩
  | append_singleton as a ih => rw [run_concat]; exact ih.act a

/-- What taking content in answers. -/
theorem Routed.ingest_map (h : Routed capacity scope as t) (now : Readings) (suffix : String)
    (kind : EntryKind) (content : Content) :
    (t.ingest now suffix kind content).map (·.1) =
      do content.admit kind; return entryAfter capacity scope as now.entry suffix kind content := by
  cases hfit : content.admit kind with
  | ok u =>
    rw [h.ingest_eq now suffix hfit]
    rfl
  | error err =>
    rw [ingest, hfit]
    rfl

theorem Routed.returns_eq (h : Routed capacity scope as t) (a : Action) :
    t.returns a = takenBy capacity scope as a := by
  cases a with
  | ingest now suffix kind content =>
    cases hfit : content.admit kind with
    | ok u =>
      simp only [returns, h.ingest_eq now suffix hfit, takenBy, Content.suits_iff.2 hfit, if_true]
    | error err =>
      rw [returns, ingest, hfit, takenBy, Content.suits_of_error hfit, if_neg Bool.false_ne_true]
      rfl
  | _ => rfl

/-- The entries that a run takes in are those that its operations say. -/
theorem ingested_new (capacity significance : Nat) (scope : SortedSet) (as : List Action) :
    (new capacity significance scope).ingested as = taken capacity scope as := by
  induction as using List.reverseRecOn with
  | nil => rfl
  | append_singleton as a ih =>
    have hrouted := routed_run capacity significance scope as
    rw [ingested, Run.chronicle_concat, ← ingested, ih, taken_concat]
    exact congrArg _ (hrouted.returns_eq a)

/-! ## Looking entries up -/

/-- Different suffixes make different ids. -/
theorem ingestedId_inj {k k' : EntryKind} {s s' : String}
    (h : ingestedId k s = ingestedId k' s') : s = s' := by
  apply EntryKind.name_colon_inj
  simpa only [ingestedId, String.append_assoc, String.append_right_inj] using h

theorem nodup_ids {es : List Entry} {ss : List String}
    (h : List.Forall₂ (fun e s => e.id = ingestedId e.kind s) es ss) (hnew : ss.Nodup) :
    (es.map (·.id)).Nodup := by
  induction h with
  | nil => exact List.nodup_nil
  | @cons e s es ss hid hrest ih =>
    rw [List.nodup_cons] at hnew
    rw [List.map_cons, List.nodup_cons]
    refine ⟨fun hmem => hnew.1 ?_, ih hnew.2⟩
    obtain ⟨e', he', heq⟩ := List.mem_map.1 hmem
    obtain ⟨s', hs', hid'⟩ := exists_of_forall₂ hrest.flip he'
    rw [hid, hid'] at heq
    exact ingestedId_inj heq ▸ hs'

/-- Where no suffix is used twice, an entry that was taken in is known by its id. -/
theorem eq_of_id_eq (hnew : (suffixes as).Nodup) {e e' : Entry}
    (he : e ∈ taken capacity scope as) (he' : e' ∈ taken capacity scope as) (hid : e.id = e'.id) :
    e = e' :=
  List.inj_on_of_nodup_map (nodup_ids (taken_forall₂_suffixes capacity scope as) hnew) he he' hid

/-- Looking for an id among entries finds the entry with it. -/
theorem find?_id_eq {es : List Entry} {e : Entry} (h : ∀ x ∈ es, x.id = e.id → x = e) :
    (es.find? fun x => x.id == e.id) = if e ∈ es then some e else none := by
  split
  · next hmem =>
    cases hfound : es.find? fun x => x.id == e.id with
    | none =>
      rw [List.find?_eq_none] at hfound
      exact absurd (beq_self_eq_true e.id) (hfound e hmem)
    | some x =>
      have hid := List.find?_some hfound
      rw [h x (List.mem_of_find?_eq_some hfound) (beq_iff_eq.1 hid)]
  · next hmem =>
    rw [List.find?_eq_none]
    intro x hx hid
    exact hmem (h x hx (beq_iff_eq.1 hid) ▸ hx)

/-- An entry that was taken in is found as long as it is on the stem or the leaf level or in the
    compost. -/
theorem Routed.find?_eq (h : Routed capacity scope as t) (hnew : (suffixes as).Nodup) {e : Entry}
    (he : e ∈ taken capacity scope as) :
    t.find? e.id =
      if e.level = .stem ∨ e.level = .leaf ∨ e ∈ t.compost then some e else none := by
  have hcompost : ∀ x ∈ t.compost, x ∈ taken capacity scope as := by
    rw [h.compost]
    exact fun x => List.mem_of_mem_drop
  have hmem : ∀ x, x ∈ t.stem ++ t.leaf ++ t.compost ↔
      x ∈ taken capacity scope as ∧ (x.level = .stem ∨ x.level = .leaf ∨ x ∈ t.compost) := by
    intro x
    rw [List.mem_append, List.mem_append, h.stem, h.leaf, List.mem_filter, List.mem_filter,
      beq_iff_eq, beq_iff_eq]
    have := hcompost x
    tauto
  rw [find?, find?_id_eq fun x hx hid => eq_of_id_eq hnew ((hmem x).1 hx).1 he hid]
  simp only [hmem, he, true_and]

/-- After any run of new tiers, with no suffix used twice where entries are looked up: the entries
    that were taken in are those that the operations say.  The next content is refused, or its
    entry is on the level that its total over the operations before leads to.  The stem and the
    leaf level hold the entries of their levels and the compost the last ones, in order; an entry
    is found unless it is on neither of the two levels and no longer in the compost.  Proposing an
    entry to a chain never fails.  There is a proposal for the entries of the stem only; it has
    their content, is added to the chain, and is the one that the log names.  The log has the steps
    of all operations, in order. -/
theorem routing_run (capacity significance : Nat) (scope : SortedSet) (as : List Action) :
    let t := (new capacity significance scope).run as
    let entries := (new capacity significance scope).ingested as
    entries = taken capacity scope as ∧
      (∀ now suffix kind content, (t.ingest now suffix kind content).map (·.1) =
        do content.admit kind
           return entryAfter capacity scope as now.entry suffix kind content) ∧
      t.stem = entries.filter (·.level == .stem) ∧
      t.leaf = entries.filter (·.level == .leaf) ∧
      t.compost = entries.drop (entries.length - max 1 capacity) ∧
      ((suffixes as).Nodup → ∀ e ∈ entries, t.find? e.id =
        if e.level = .stem ∨ e.level = .leaf ∨ e ∈ t.compost then some e else none) ∧
      (∀ chain now suffix id, let root := t.proposal chain now.entry suffix id
        t.promoteToRoot chain now suffix id =
          .ok (root, t.act (.promoteToRoot chain now suffix id),
            (root.map chain.push).getD chain) ∧
        (root.isSome = true ↔ ∃ e ∈ t.stem, e.id = id) ∧
        loggedBy capacity scope as (.promoteToRoot chain now suffix id) =
          root.toList.map (stepToRoot now.record id)) ∧
      t.promotions = logged capacity scope as := by
  intro t entries
  have h : Routed capacity scope as t := routed_run capacity significance scope as
  have hentries : entries = taken capacity scope as := ingested_new ..
  rw [hentries]
  refine ⟨rfl, h.ingest_map, h.stem, h.leaf, h.compost, fun hnew e he => h.find?_eq hnew he, ?_,
    h.promotions⟩
  intro chain now suffix id root
  have heq := h.promoteToRoot_eq chain now suffix id
  refine ⟨?_, isSome_proposal, h.loggedBy_promoteToRoot chain now suffix id⟩
  rw [Tiers.act, heq]
  rfl

/-- Two settlements are taken in, the first of them is proposed to a chain, and after a reset
    another two are taken in. -/
def settlementRun : List Action :=
  let settlement (id : String) : Content :=
    .plain (.bilateralSettlement (Statement.blank id "lct:a" "lct:b"))
  [ .ingest .epoch "x1" .bilateralSettlement (settlement "stmt:1"),
    .ingest .epoch "x2" .bilateralSettlement (settlement "stmt:2"),
    .promoteToRoot (.new Chain.trio .lowestEntryId) .epoch "x3"
      "fc:bilateral_settlement:x1",
    .resetNovelty,
    .ingest .epoch "x4" .bilateralSettlement (settlement "stmt:3"),
    .ingest .epoch "x5" .bilateralSettlement (settlement "stmt:4") ]

/-- The first settlement before and after the reset is new and comes to the stem.  In a compost of
    one entry only the last one is left, so that the second one is not found. -/
theorem routing_settlementRun :
    let t := (new 1 5 .empty).run settlementRun
    let entries := (new 1 5 .empty).ingested settlementRun
    (suffixes settlementRun).Nodup ∧
      entries.map (·.level) = [.stem, .compost, .stem, .compost] ∧
      entries.map (fun e => (t.find? e.id).isSome) = [true, false, true, true] ∧
      t.promotions.map (·.total) = [some 5, none, some 5] ∧
      ∀ e ∈ entries, t.find? e.id =
        if e.level = .stem ∨ e.level = .leaf ∨ e ∈ t.compost then some e else none := by
  have h : (suffixes settlementRun).Nodup := by decide
  exact ⟨h, by decide +kernel, by decide +kernel, by decide +kernel,
    (routing_run 1 5 .empty settlementRun).2.2.2.2.2.1 h⟩

end Tiers

end WitnessLedger
