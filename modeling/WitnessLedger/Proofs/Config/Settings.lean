import WitnessLedger.Config.Settings
import WitnessLedger.Proofs.Text.Blank
import WitnessLedger.Proofs.Text.Split
import Mathlib.Data.List.Forall2

/-!
# Lists of names

A setting that lists names is read without the blanks around them and without the empty ones.  The
names are the parts of the text as they stand exactly if there is nothing of this to drop.  What is
read are names that can be written into a setting again, and they are read back from it.

## Key results

- `splitList_eq_iff`: when the names of a list are the parts of its text
- `getD_readNodes?_eq_iff`: when the nodes of a setting are
- `isName_of_mem_splitList`: what a list holds are names
- `splitList_joinText`: names are read back from the text that lists them
- `isName_of_mem_ofSettings`, `nodes_ofSettings_ne_nil`: settings always give nodes, and all are names
-/

namespace WitnessLedger.Config

/-- Whether a list of names has nothing to drop: no part between commas is empty, and none has
    blanks around it. -/
def IsTidy (s : String) : Prop :=
  ∀ part ∈ Text.splitText ',' s, part ≠ "" ∧ Text.trimmed part = part

instance (s : String) : Decidable (IsTidy s) :=
  List.decidableBAll (fun part => part ≠ "" ∧ Text.trimmed part = part) (Text.splitText ',' s)

/-- Dropping leaves the parts of a text alone exactly if there is nothing to drop. -/
theorem splitList_eq_iff {s : String} : splitList s = Text.splitText ',' s ↔ IsTidy s := by
  constructor
  · intro h
    -- Nothing can have been filtered out, since as many parts remain as there were.
    have hfilter : ∀ part ∈ (Text.splitText ',' s).map Text.trimmed, (!part.isEmpty) = true := by
      rw [← List.length_filter_eq_length_iff, List.length_map]
      exact congrArg List.length h
    rw [splitList, List.filter_eq_self.2 hfilter] at h
    have htrimmed : ∀ part ∈ Text.splitText ',' s, Text.trimmed part = id part :=
      List.map_inj_left.1 (h.trans (List.map_id _).symm)
    intro part hpart
    refine ⟨?_, htrimmed part hpart⟩
    rintro rfl
    have hempty := hfilter _ (List.mem_map_of_mem hpart)
    rw [htrimmed _ hpart] at hempty
    exact absurd hempty (by decide)
  · intro h
    have htrimmed : (Text.splitText ',' s).map Text.trimmed = Text.splitText ',' s := by
      rw [List.map_congr_left fun part hpart => (h part hpart).2, List.map_id']
    rw [splitList, htrimmed, List.filter_eq_self]
    intro part hpart
    simpa using (h part hpart).1

theorem splitText_ne_nil (sep : Char) (s : String) : Text.splitText sep s ≠ [] := by
  rw [Text.splitText, ne_eq, List.map_eq_nil_iff]
  exact Text.split_ne_nil sep _

/-- The nodes that a setting gives are its parts as they stand exactly if there is nothing to
    drop from it. -/
theorem getD_readNodes?_eq_iff {s : String} :
    (readNodes? s).getD standard.consensusNodes = Text.splitText ',' s ↔ IsTidy s := by
  unfold readNodes?
  split
  · next hnone =>
    constructor
    · -- The names that stand in for a missing list are tidy themselves.
      intro h part hpart
      have hstandard : ∀ part ∈ standard.consensusNodes,
          part ≠ "" ∧ Text.trimmed part = part := by decide
      rw [← h] at hpart
      exact hstandard part hpart
    · intro h
      rw [splitList_eq_iff.2 h] at hnone
      exact absurd hnone (splitText_ne_nil _ s)
  · exact splitList_eq_iff

/-! ## Names -/

/-- A text that a setting can list as a name: it is not empty, has no blanks around it and no
    comma. -/
structure IsName (s : String) : Prop where
  ne_empty : s ≠ ""
  trimmed_eq : Text.trimmed s = s
  noComma : ',' ∉ s.toList

instance (s : String) : Decidable (IsName s) :=
  decidable_of_iff (s ≠ "" ∧ Text.trimmed s = s ∧ ',' ∉ s.toList)
    ⟨fun ⟨hne, htrimmed, hcomma⟩ => ⟨hne, htrimmed, hcomma⟩,
      fun h => ⟨h.ne_empty, h.trimmed_eq, h.noComma⟩⟩

/-- Whether a part of a setting is a given name with any blanks around it. -/
def IsPartFor (name part : String) : Prop :=
  ∃ before after, Text.isBlankText before = true ∧ Text.isBlankText after = true ∧
    part = before ++ name ++ after

theorem IsPartFor.trimmed_eq {name part : String} (h : IsPartFor name part) :
    Text.trimmed part = Text.trimmed name := by
  obtain ⟨before, after, hbefore, hafter, rfl⟩ := h
  exact Text.trimmed_append hbefore hafter name

/-- Blanks bring no comma in. -/
theorem IsPartFor.noComma {name part : String} (h : IsPartFor name part)
    (hname : ',' ∉ name.toList) : ',' ∉ part.toList := by
  obtain ⟨before, after, hbefore, hafter, rfl⟩ := h
  have hcomma : ∀ {s : String}, Text.isBlankText s = true → ',' ∉ s.toList := by
    intro s hs hmem
    exact absurd (List.all_eq_true.1 hs _ hmem) (by decide)
  simp only [String.toList_append, List.mem_append, not_or]
  exact ⟨⟨hcomma hbefore, hname⟩, hcomma hafter⟩

/-- What a list holds are names. -/
theorem isName_of_mem_splitList {s name : String} (h : name ∈ splitList s) : IsName name := by
  obtain ⟨hmem, hne⟩ := List.mem_filter.1 h
  obtain ⟨part, hpart, rfl⟩ := List.mem_map.1 hmem
  refine ⟨by simpa using hne, Text.trimmed_trimmed part, ?_⟩
  intro hcomma
  rw [Text.trimmed, String.toList_ofList] at hcomma
  exact Text.notMem_of_mem_splitText hpart (Text.mem_of_mem_trim hcomma)

/-- Names are read back from the text that lists them, whatever blanks stand around them. -/
theorem splitList_joinText {names parts : List String} (hne : names ≠ [])
    (hnames : ∀ name ∈ names, IsName name) (hparts : List.Forall₂ IsPartFor names parts) :
    splitList (Text.joinText "," parts) = names := by
  have hnamed : List.Forall₂ (fun name part => IsName name ∧ IsPartFor name part) names parts :=
    (List.forall₂_and_left _ _).2 ⟨hnames, hparts⟩
  -- Neither a name nor the blanks around it hold a comma, so that the parts come back whole.
  have hcomma : ∀ part ∈ parts, ',' ∉ part.toList := by
    have hflipped := hnamed.flip.imp fun part name (h : IsName name ∧ IsPartFor name part) =>
      And.intro (h.2.noComma h.1.noComma) trivial
    exact ((List.forall₂_and_left _ _).1 hflipped).1
  have hsplit : Text.splitText ',' (Text.joinText "," parts) = parts := by
    refine Text.splitText_joinText ?_ hcomma
    rintro rfl
    cases hparts
    exact hne rfl
  have htrimmed : names = parts.map Text.trimmed := by
    rw [← List.forall₂_eq_eq_eq, List.forall₂_map_right_iff]
    exact hnamed.imp fun name part h => (h.2.trimmed_eq.trans h.1.trimmed_eq).symm
  rw [splitList, hsplit, ← htrimmed, List.filter_eq_self]
  intro name hname
  simpa using (hnames name hname).ne_empty

/-! ## The nodes of a configuration -/

theorem readNodes?_eq_some_iff {s : String} {nodes : List String} :
    readNodes? s = some nodes ↔ splitList s = nodes ∧ nodes ≠ [] := by
  unfold readNodes?
  split
  · next hnil =>
    rw [hnil]
    constructor
    · intro h
      cases h
    · rintro ⟨rfl, hne⟩
      exact absurd rfl hne
  · next hne =>
    constructor
    · intro h
      cases h
      exact ⟨rfl, hne⟩
    · rintro ⟨rfl, -⟩
      rfl

theorem nodes_ofSettings_eq (setting? : String → Option String) :
    (ofSettings setting?).consensusNodes =
      ((setting? nodesKey).bind readNodes?).getD standard.consensusNodes := rfl

/-- The nodes of a configuration are the standard ones, or a setting names them. -/
theorem nodes_ofSettings_cases (setting? : String → Option String) :
    (ofSettings setting?).consensusNodes = standard.consensusNodes ∨
      ∃ s, readNodes? s = some (ofSettings setting?).consensusNodes := by
  rw [nodes_ofSettings_eq]
  cases hread : (setting? nodesKey).bind readNodes? with
  | none => exact Or.inl rfl
  | some nodes =>
    obtain ⟨s, -, hs⟩ := Option.bind_eq_some_iff.1 hread
    exact Or.inr ⟨s, hs⟩

/-- Settings always give nodes. -/
theorem nodes_ofSettings_ne_nil (setting? : String → Option String) :
    (ofSettings setting?).consensusNodes ≠ [] := by
  rcases nodes_ofSettings_cases setting? with hstandard | ⟨s, hs⟩
  · rw [hstandard]
    decide
  · exact (readNodes?_eq_some_iff.1 hs).2

/-- All nodes that settings give are names. -/
theorem isName_of_mem_ofSettings {setting? : String → Option String} {node : String}
    (h : node ∈ (ofSettings setting?).consensusNodes) : IsName node := by
  rcases nodes_ofSettings_cases setting? with hstandard | ⟨s, hs⟩
  · have hnames : ∀ node ∈ standard.consensusNodes, IsName node := by decide
    rw [hstandard] at h
    exact hnames node h
  · rw [← (readNodes?_eq_some_iff.1 hs).1] at h
    exact isName_of_mem_splitList h

/-- The nodes that a setting lists are those of the configuration. -/
theorem nodes_ofSettings {setting? : String → Option String} {names parts : List String}
    (hne : names ≠ []) (hnames : ∀ name ∈ names, IsName name)
    (hparts : List.Forall₂ IsPartFor names parts)
    (hset : setting? nodesKey = some (Text.joinText "," parts)) :
    (ofSettings setting?).consensusNodes = names := by
  rw [nodes_ofSettings_eq, hset, Option.bind_some,
    readNodes?_eq_some_iff.2 ⟨splitList_joinText hne hnames hparts, hne⟩, Option.getD_some]

end WitnessLedger.Config
