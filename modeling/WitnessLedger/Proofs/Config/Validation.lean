import WitnessLedger.Ledger
import WitnessLedger.Proofs.Config.Settings

/-!
# Valid configurations

A configuration is looked at twice before a ledger is set up, once by its own validation and once
more by the panel that is made of its nodes.  The panel asks for less, so that a valid configuration
always sets a ledger up and one that is not valid fails with what its validation says.  Settings
give names as nodes, and names are at fault only where one of them is repeated.

## Key results

- `verdict_validate`: what validation says, and under which guard
- `nodeFault?_eq_map`: among nodes that are not blank only a repeated one is at fault
- `exists_panel`: the panel of a valid configuration is never refused
- `validation_ofSettings`: the nodes that settings give, and what a configuration sets up
-/

namespace WitnessLedger.Config

/-- What validation can say on a configuration. -/
inductive Verdict (c : Config) : Except ConfigError Unit → Prop
  | empty (hnil : c.consensusNodes = []) : Verdict c (.error .noConsensusNodes)
  | node {fault : ConfigError} (hne : c.consensusNodes ≠ [])
      (hfault : nodeFault? [] c.consensusNodes = some fault) : Verdict c (.error fault)
  | threshold (hne : c.consensusNodes ≠ []) (hnodes : nodeFault? [] c.consensusNodes = none)
      (hrange : thresholdInRange c.consensusThreshold = false) :
      Verdict c (.error (.invalidThreshold c.consensusThreshold))
  | capacity (hne : c.consensusNodes ≠ []) (hnodes : nodeFault? [] c.consensusNodes = none)
      (hrange : thresholdInRange c.consensusThreshold = true) (hzero : c.compostCapacity = 0) :
      Verdict c (.error .zeroCapacity)
  | valid (hne : c.consensusNodes ≠ []) (hnodes : nodeFault? [] c.consensusNodes = none)
      (hrange : thresholdInRange c.consensusThreshold = true) (hpos : c.compostCapacity ≠ 0) :
      Verdict c (.ok ())

theorem verdict_validate (c : Config) : c.Verdict c.validate := by
  unfold validate
  by_cases hnil : c.consensusNodes = []
  · rw [if_pos (List.isEmpty_iff.2 hnil)]
    exact .empty hnil
  · rw [if_neg (mt List.isEmpty_iff.1 hnil)]
    cases hnodes : nodeFault? [] c.consensusNodes with
    | some fault => exact .node hnil hnodes
    | none =>
      cases hrange : thresholdInRange c.consensusThreshold with
      | false => exact .threshold hnil hnodes hrange
      | true =>
        by_cases hzero : c.compostCapacity = 0
        · rw [if_pos hzero]
          exact .capacity hnil hnodes hrange hzero
        · rw [if_neg hzero]
          exact .valid hnil hnodes hrange hzero

/-! ## Nodes at fault -/

/-- Among nodes that are not blank only a repeated one is at fault. -/
theorem nodeFault?_eq_map {nodes : List String}
    (hblank : ∀ node ∈ nodes, Text.isBlankText node = false) (seen : List String) :
    nodeFault? seen nodes = (firstRepeated? seen nodes).map .duplicateNode := by
  induction nodes generalizing seen with
  | nil => rfl
  | cons node rest ih =>
    have hnode := hblank node (List.mem_cons_self ..)
    have hrest := ih fun x hx => hblank x (List.mem_cons_of_mem _ hx)
    rw [nodeFault?, firstRepeated?, if_neg (by simp [hnode])]
    by_cases hseen : node ∈ seen
    · rw [if_pos hseen, if_pos hseen]
      rfl
    · rw [if_neg hseen, if_neg hseen, hrest]

/-- Nodes at no fault hold no repeated one. -/
theorem firstRepeated?_of_nodeFault? {seen nodes : List String}
    (h : nodeFault? seen nodes = none) : firstRepeated? seen nodes = none := by
  induction nodes generalizing seen with
  | nil => rfl
  | cons node rest ih =>
    rw [nodeFault?] at h
    split at h
    · cases h
    · split at h
      · cases h
      · next hseen =>
        rw [firstRepeated?, if_neg hseen]
        exact ih h

/-! ## The panel and the ledger -/

/-- The panel of a valid configuration is never refused. -/
theorem exists_panel {c : Config} (h : c.validate = .ok ()) :
    ∃ panel, Panel.of c.consensusNodes c.consensusThreshold = .ok panel := by
  have hverdict := verdict_validate c
  rw [h] at hverdict
  cases hverdict with
  | valid hne hnodes hrange =>
    -- The panel looks at what validation has looked at, except that blank nodes pass.
    have hrepeated := firstRepeated?_of_nodeFault? hnodes
    unfold Panel.of
    rw [dif_neg hne]
    split
    · next node hsome =>
      rw [hrepeated] at hsome
      cases hsome
    · rw [dif_pos hrange]
      exact ⟨_, rfl⟩

theorem ofConfig_of_validate {c : Config} (h : c.validate = .ok ()) :
    ∃ l, Ledger.ofConfig c = .ok l := by
  obtain ⟨panel, hpanel⟩ := exists_panel h
  rw [Ledger.ofConfig, h, hpanel]
  exact ⟨_, rfl⟩

theorem ofConfig_of_fault {c : Config} {fault : ConfigError} (h : c.validate = .error fault) :
    Ledger.ofConfig c = .error fault := by
  rw [Ledger.ofConfig, h]
  rfl

/-- A ledger is set up exactly from a valid configuration. -/
theorem ofConfig_eq_ok_iff {c : Config} :
    (∃ l, Ledger.ofConfig c = .ok l) ↔ c.validate = .ok () := by
  refine ⟨?_, ofConfig_of_validate⟩
  rintro ⟨l, hl⟩
  cases hvalid : c.validate with
  | ok => rfl
  | error fault =>
    rw [ofConfig_of_fault hvalid] at hl
    cases hl

/-- Where no ledger is set up, the fault is the one that validation has found. -/
theorem ofConfig_eq_error_iff {c : Config} {fault : ConfigError} :
    Ledger.ofConfig c = .error fault ↔ c.validate = .error fault := by
  refine ⟨?_, ofConfig_of_fault⟩
  intro h
  cases hvalid : c.validate with
  | ok =>
    obtain ⟨l, hl⟩ := ofConfig_of_validate hvalid
    rw [hl] at h
    cases h
  | error fault' =>
    rw [ofConfig_of_fault hvalid] at h
    cases h
    rfl

/-- A configuration whose nodes are names can only be at fault in three ways. -/
theorem fault_of_names {c : Config} {fault : ConfigError} (hne : c.consensusNodes ≠ [])
    (hnames : ∀ node ∈ c.consensusNodes, IsName node) (h : c.validate = .error fault) :
    (∃ node, fault = .duplicateNode node) ∨ (∃ threshold, fault = .invalidThreshold threshold) ∨
      fault = .zeroCapacity := by
  have hverdict := verdict_validate c
  rw [h] at hverdict
  cases hverdict with
  | empty hnil => exact absurd hnil hne
  | node _ hfault =>
    have hblank : ∀ node ∈ c.consensusNodes, Text.isBlankText node = false :=
      fun node hnode => Text.isBlankText_eq_false (hnames node hnode).ne_empty
        (hnames node hnode).trimmed_eq
    rw [nodeFault?_eq_map hblank] at hfault
    obtain ⟨node, -, rfl⟩ := Option.map_eq_some_iff.1 hfault
    exact Or.inl ⟨node, rfl⟩
  | threshold => exact Or.inr (Or.inl ⟨_, rfl⟩)
  | capacity => exact Or.inr (Or.inr rfl)

/-- Settings always give nodes, and these are names, so that nothing can be at fault with the
    nodes but that one is repeated.  Names that a setting lists, with any blanks around them, are
    the nodes that it gives.  And whatever the configuration, it sets a ledger up exactly if it is
    valid, and fails with the fault that validation finds otherwise: the panel of a valid
    configuration is never refused. -/
theorem validation_ofSettings :
    (∀ setting? : String → Option String,
      (ofSettings setting?).consensusNodes ≠ [] ∧
        (∀ node ∈ (ofSettings setting?).consensusNodes, IsName node) ∧
        ∀ fault, (ofSettings setting?).validate = .error fault →
          (∃ node, fault = .duplicateNode node) ∨
            (∃ threshold, fault = .invalidThreshold threshold) ∨ fault = .zeroCapacity) ∧
      (∀ (setting? : String → Option String) (names parts : List String), names ≠ [] →
        (∀ name ∈ names, IsName name) → List.Forall₂ IsPartFor names parts →
        setting? nodesKey = some (Text.joinText "," parts) →
          (ofSettings setting?).consensusNodes = names) ∧
      ∀ c : Config,
        ((∃ l, Ledger.ofConfig c = .ok l) ↔ c.validate = .ok ()) ∧
          (∀ fault, Ledger.ofConfig c = .error fault ↔ c.validate = .error fault) ∧
          (c.validate = .ok () →
            ∃ panel, Panel.of c.consensusNodes c.consensusThreshold = .ok panel) := by
  refine ⟨fun setting? => ?_, fun setting? names parts => nodes_ofSettings, fun c => ?_⟩
  · have hne := nodes_ofSettings_ne_nil setting?
    have hnames : ∀ node ∈ (ofSettings setting?).consensusNodes, IsName node :=
      fun _ => isName_of_mem_ofSettings
    exact ⟨hne, hnames, fun _ => fault_of_names hne hnames⟩
  · exact ⟨ofConfig_eq_ok_iff, fun _ => ofConfig_eq_error_iff, exists_panel⟩

/-- Settings that list the nodes and nothing else. -/
def listing (text key : String) : Option String := if key = nodesKey then some text else none

/-- Three names, with blanks around one of them, are the nodes of a ledger; with a name that stands
    twice there is none. -/
theorem validation_ofSettings_spaced :
    (ofSettings (listing "n1, \t n2 ,n3")).consensusNodes = ["n1", "n2", "n3"] ∧
      (∃ l, Ledger.ofConfig (ofSettings (listing "n1, \t n2 ,n3")) = .ok l) ∧
      Ledger.ofConfig (ofSettings (listing "n1, n1")) = .error (.duplicateNode "n1") := by
  obtain ⟨-, hread, hledger⟩ := validation_ofSettings
  have hparts : List.Forall₂ IsPartFor ["n1", "n2", "n3"] ["n1", " \t n2 ", "n3"] :=
    .cons ⟨"", "", by decide, by decide, by decide⟩
      (.cons ⟨" \t ", " ", by decide, by decide, by decide⟩
        (.cons ⟨"", "", by decide, by decide, by decide⟩ .nil))
  refine ⟨hread _ _ _ (by decide) (by decide) hparts (by decide +kernel), ?_, ?_⟩
  · refine (hledger _).1.2 ?_
    decide +kernel
  · refine ((hledger _).2.1 _).2 ?_
    decide +kernel

end WitnessLedger.Config
