import WitnessLedger.Command.Run
import WitnessLedger.Proofs.Config.Settings
import WitnessLedger.Proofs.Except
import WitnessLedger.Proofs.Text.Blank

/-!
# Options that are not given

The nodes and the threshold have two sources beside the command line.  A setting stands in for
the option that is not given, and the configuration reads the same settings on its own.  The
option takes the text as it stands, while the configuration drops blanks and empty names and
passes over what does not read.

## Key results

- `Grammar.read_holds`: what no option breaks holds after all arguments are read
- `Invocation.read_of_unset`: the settings fill in exactly what the command line leaves open
- `effectiveConfig_readInvocation`: when both readings give the same configuration
-/

namespace WitnessLedger.Command

/-! ## What options keep -/

section Invariants

variable {σ : Type} {P : σ → List String → Prop} {flags : List (Flag σ)}

/-- What has been read has a property, and the option that waits for its value is known. -/
structure Progress.Holds (P : σ → List String → Prop) (flags : List (Flag σ)) (p : Progress σ) :
    Prop where
  read : P p.settings p.seen
  pending : ∀ flag value, p.pending = some (flag, value) → flag ∈ flags

/-- An option leaves a property of what has been read intact, whatever its value is. -/
def Flag.Keeps (P : σ → List String → Prop) (flag : Flag σ) : Prop :=
  ∀ settings seen, P settings seen →
    match flag.effect with
    | .flag set => P (set settings) (seen ++ [flag.long])
    | .value set => ∀ value settings', set value settings = .ok settings' →
      P settings' (seen ++ [flag.long])
    | .stop _ => True

variable (hkeeps : ∀ flag ∈ flags, flag.Keeps P)
include hkeeps

namespace Progress

variable {p p' : Progress σ} {flag : Flag σ}

theorem Holds.apply (hp : p.Holds P flags) (hflag : flag ∈ flags) {value : String}
    (h : p.apply flag value = .ok p') : p'.Holds P flags := by
  have hkept := hkeeps flag hflag _ _ hp.read
  unfold Progress.apply at h
  split at h
  · cases h
  · cases heffect : flag.effect with
    | flag set =>
      simp only [heffect] at h hkept
      cases h
      exact ⟨hkept, hp.pending⟩
    | value set =>
      simp only [heffect] at h hkept
      obtain ⟨settings', hset, h⟩ := bind_eq_ok_iff.1 h
      cases h
      exact ⟨hkept _ _ hset, hp.pending⟩
    | stop request =>
      simp only [heffect] at h
      cases h

theorem Holds.settle (hp : p.Holds P flags) (h : p.settle = .ok p') : p'.Holds P flags := by
  unfold Progress.settle at h
  split at h
  · cases h
    exact hp
  · cases h
  · next flag value hpending =>
    -- nothing waits any more while the value is taken
    have hcleared : ({ p with pending := none } : Progress σ).Holds P flags :=
      ⟨hp.read, fun _ _ hnone => nomatch hnone⟩
    exact hcleared.apply hkeeps (hp.pending _ _ hpending) h

theorem Holds.begin (hp : p.Holds P flags) (hflag : flag ∈ flags) {attached : Option String}
    (h : p.begin flag attached = .ok p') : p'.Holds P flags := by
  obtain ⟨settled, hsettled, h⟩ := bind_eq_ok_iff.1 h
  have hholds := hp.settle hkeeps hsettled
  split at h
  · cases h
    refine ⟨hholds.read, fun _ _ heq => ?_⟩
    cases heq
    exact hflag
  · exact hholds.apply hkeeps hflag h

omit hkeeps in
theorem Holds.supply (hp : p.Holds P flags) (value : String) : (p.supply value).Holds P flags where
  read := hp.read
  pending := by
    intro flag value' h
    obtain ⟨⟨waiting, _⟩, hpending, heq⟩ := Option.map_eq_some_iff.1 h
    cases heq
    exact hp.pending _ _ hpending

theorem Holds.readLong (hp : p.Holds P flags) {text : List Char}
    (h : p.readLong flags text = .ok p') : p'.Holds P flags := by
  unfold Progress.readLong at h
  dsimp only at h
  split at h
  · cases h
  · next flag hfind =>
    have hflag := List.mem_of_find?_eq_some hfind
    split at h
    · exact hp.begin hkeeps hflag h
    · exact hp.begin hkeeps hflag h
    · cases h

/-- Options that share a dash are read one after the other. -/
theorem Holds.readShort (hp : p.Holds P flags) {cs : List Char}
    (h : p.readShort flags cs = .ok p') : p'.Holds P flags := by
  induction cs generalizing p with
  | nil =>
    cases h
    exact hp
  | cons c rest ih =>
    unfold Progress.readShort at h
    split at h
    · cases h
    · next flag hfind =>
      have hflag := List.mem_of_find?_eq_some hfind
      split at h
      · exact hp.begin hkeeps hflag h
      · exact hp.begin hkeeps hflag h
      · exact hp.begin hkeeps hflag h
      · obtain ⟨begun, hbegun, h⟩ := bind_eq_ok_iff.1 h
        exact ih (hp.begin hkeeps hflag hbegun) h

end Progress

/-- What no option of a grammar breaks holds after all arguments up to a command are read. -/
theorem Grammar.read_holds {subcommands : List String} {p p' : Progress σ}
    (hp : p.Holds P flags) {args : List String} {command : Option (String × List String)}
    (h : Grammar.read ⟨flags, subcommands⟩ p args = .ok (p', command)) : p'.Holds P flags := by
  induction args generalizing p with
  | nil =>
    cases h
    exact hp
  | cons arg rest ih =>
    unfold Grammar.read at h
    split at h
    · cases h
      exact hp
    · split at h
      · -- After two dashes that stand alone no argument is admitted.
        cases rest with
        | nil =>
          cases h
          exact hp
        | cons _ _ => cases h
      · obtain ⟨begun, hbegun, h⟩ := bind_eq_ok_iff.1 h
        exact ih (hp.readLong hkeeps hbegun) h
      · obtain ⟨begun, hbegun, h⟩ := bind_eq_ok_iff.1 h
        exact ih (hp.readShort hkeeps hbegun) h
      · split at h
        · exact ih (hp.supply arg) h
        · cases h

end Invariants

/-! ## The nodes and the threshold -/

/-- The nodes and the threshold are set exactly by the options that carry their names. -/
structure Globals.Noted (g : Globals) (seen : List String) : Prop where
  nodes : "nodes" ∈ seen ↔ g.nodes ≠ none
  threshold : "threshold" ∈ seen ↔ g.threshold ≠ none

namespace Globals.Noted

variable {g g' : Globals} {seen : List String}

/-- An option with another name may change everything but the nodes and the threshold. -/
theorem append (h : g.Noted seen) {long : String} (hlong : long ≠ "nodes" ∧ long ≠ "threshold")
    (hnodes : g'.nodes = g.nodes) (hthreshold : g'.threshold = g.threshold) :
    g'.Noted (seen ++ [long]) where
  nodes := by simpa [hnodes, hlong.1.symm] using h.nodes
  threshold := by simpa [hthreshold, hlong.2.symm] using h.threshold

theorem addNodes (h : g.Noted seen) (value : String) :
    (g.addNodes value).Noted (seen ++ ["nodes"]) where
  nodes := by simp [Globals.addNodes]
  threshold := by simpa [Globals.addNodes] using h.threshold

theorem setThreshold (h : g.Noted seen) {value : String} (hset : g.setThreshold value = .ok g') :
    g'.Noted (seen ++ ["threshold"]) := by
  obtain ⟨x, -, hset⟩ := bind_eq_ok_iff.1 hset
  cases hset
  exact ⟨by simpa using h.nodes, by simp⟩

end Globals.Noted

theorem keeps_noted : ∀ flag ∈ globalFlags, flag.Keeps Globals.Noted := by
  simp only [globalFlags, List.forall_mem_cons, List.not_mem_nil, false_implies, implies_true,
    and_true]
  refine ⟨?nodes, ?threshold, ?format, ?verbose, ?help, ?version⟩
  case nodes =>
    intro g seen h value g' hset
    cases hset
    exact h.addNodes value
  case threshold => exact fun g seen h value g' hset => h.setThreshold hset
  case format =>
    intro g seen h value g' hset
    dsimp only at hset
    split at hset
    · cases hset
      exact h.append (by decide) rfl rfl
    · cases hset
  case verbose => exact fun g seen h => h.append (by decide) rfl rfl
  case help => exact fun _ _ _ => trivial
  case version => exact fun _ _ _ => trivial

/-! ## Settings in place of options -/

/-- The threshold that a setting gives, if there is one; it has to read. -/
def readThreshold : Option String → Except UsageError (Option Double)
  | none => .ok none
  | some s => (required (Double.read? s)).map some

theorem readThreshold_of_unread {s : String} (h : Double.read? s = none) :
    readThreshold (some s) = .error .valueValidation := by
  rw [readThreshold, h]
  rfl

theorem readThreshold_of_legible {threshold : Option String}
    (h : ∀ s, threshold = some s → Double.read? s ≠ none) :
    readThreshold threshold = .ok (threshold.bind Double.read?) := by
  cases threshold with
  | none => rfl
  | some s =>
    obtain ⟨x, hx⟩ := Option.ne_none_iff_exists'.1 (h s rfl)
    rw [readThreshold, Option.bind_some, hx]
    rfl

/-- Settings stand in for options that are not given: the nodes are the parts of their text as
    they stand, and the threshold has to read. -/
theorem withDefaults_of_unset {p : Progress Globals} (hp : p.settings.Noted p.seen)
    (hnodes : p.settings.nodes = none) (hthreshold : p.settings.threshold = none)
    (nodes threshold : Option String) :
    (withDefaults p nodes threshold).map (·.settings) =
      (readThreshold threshold).map fun t =>
        { p.settings with nodes := nodes.map (Text.splitText ','), threshold := t } := by
  -- neither option has been read, which is what decides about the settings
  obtain ⟨⟨n, t, format, verbose⟩, seen, pending⟩ := p
  dsimp only at hp hnodes hthreshold
  subst hnodes hthreshold
  have hn : seen.contains "nodes" = false := by simpa using hp.nodes
  have ht : seen.contains "threshold" = false := by simpa using hp.threshold
  have ht' : (seen ++ ["nodes"]).contains "threshold" = false := by simpa using ht
  cases nodes with
  | none =>
    cases threshold with
    | none => rfl
    | some s =>
      simp only [withDefaults, ht, Globals.setThreshold, Bool.false_eq_true, if_false]
      rw [readThreshold]
      cases Double.read? s <;> rfl
  | some names =>
    cases threshold with
    | none =>
      simp only [withDefaults, hn]
      rfl
    | some s =>
      simp only [withDefaults, hn, ht', Globals.setThreshold, Bool.false_eq_true, if_false]
      rw [readThreshold]
      cases Double.read? s <;> rfl

namespace Invocation

variable {args : List String} {i : Invocation}

/-- The settings come last, once all options are read. -/
theorem exists_settled (hread : Invocation.read args none none = .ok i) :
    ∃ p : Progress Globals, p.settings.Noted p.seen ∧ i.globals = p.settings ∧
      ∀ nodes threshold, Invocation.read args nodes threshold =
        (withDefaults p nodes threshold).map fun p' => ⟨p'.settings, i.request⟩ := by
  unfold Invocation.read at hread
  obtain ⟨⟨p, command⟩, hgrammar, hread⟩ := bind_eq_ok_iff.1 hread
  obtain ⟨request, hrequest, hread⟩ := bind_eq_ok_iff.1 hread
  obtain ⟨settled, hsettled, hread⟩ := bind_eq_ok_iff.1 hread
  cases request with
  | none => cases hread
  | some request =>
    cases hread
    have hstart : Progress.Holds Globals.Noted globalFlags
        ⟨⟨none, none, .table, false⟩, [], none⟩ :=
      ⟨⟨by simp, by simp⟩, fun _ _ hnone => nomatch hnone⟩
    -- the value that may still wait at the end of the arguments is settled as well
    have hholds := (Grammar.read_holds keeps_noted hstart hgrammar).settle keeps_noted hsettled
    refine ⟨settled, hholds.read, rfl, fun nodes threshold => ?_⟩
    simp only [Invocation.read, hgrammar, hrequest, hsettled, bind, Except.bind]
    cases withDefaults settled nodes threshold <;> rfl

/-- The settings fill in what a command line leaves open, and change nothing else of it. -/
theorem read_of_unset (hread : Invocation.read args none none = .ok i)
    (hnodes : i.globals.nodes = none) (hthreshold : i.globals.threshold = none)
    (nodes threshold : Option String) :
    Invocation.read args nodes threshold =
      (readThreshold threshold).map fun t =>
        ⟨{ i.globals with nodes := nodes.map (Text.splitText ','), threshold := t }, i.request⟩ := by
  obtain ⟨p, hnoted, hglobals, hcompleted⟩ := exists_settled hread
  rw [hglobals] at hnodes hthreshold ⊢
  have hfilled := withDefaults_of_unset hnoted hnodes hthreshold nodes threshold
  calc Invocation.read args nodes threshold
      = (withDefaults p nodes threshold).map fun p' => ⟨p'.settings, i.request⟩ :=
        hcompleted nodes threshold
    _ = ((withDefaults p nodes threshold).map (·.settings)).map fun g => ⟨g, i.request⟩ :=
        by rw [map_map]
    _ = _ := by rw [hfilled, map_map]

end Invocation

/-! ## The configuration of a command line -/

section Settings

variable {setting? : String → Option String}

/-- A threshold that reads is the same to both readers. -/
theorem getD_threshold_ofSettings
    (h : ∀ s, setting? Config.thresholdKey = some s → Double.read? s ≠ none) :
    ((setting? Config.thresholdKey).bind Double.read?).getD
      (Config.ofSettings setting?).consensusThreshold =
        (Config.ofSettings setting?).consensusThreshold := by
  cases hs : setting? Config.thresholdKey with
  | none => rfl
  | some s =>
    obtain ⟨x, hx⟩ := Option.ne_none_iff_exists'.1 (h s hs)
    simp [Config.ofSettings, hs, hx, Double.read?_trimmed hx]

/-- Where the command line leaves the nodes open, they are the same to both readers exactly if
    the setting is tidy. -/
theorem getD_nodes_ofSettings_iff :
    ((setting? Config.nodesKey).map (Text.splitText ',')).getD
        (Config.ofSettings setting?).consensusNodes = (Config.ofSettings setting?).consensusNodes ↔
      ∀ s, setting? Config.nodesKey = some s → Config.IsTidy s := by
  cases hs : setting? Config.nodesKey with
  | none => simp
  | some s =>
    simp only [Config.ofSettings, hs, Option.map_some, Option.getD_some, Option.bind_some,
      Option.some.injEq, forall_eq']
    rw [eq_comm, Config.getD_readNodes?_eq_iff]

/-- A command line that leaves the nodes and the threshold open is refused exactly where the
    setting of the threshold does not read.  Otherwise its configuration is that of the settings,
    apart from the nodes, which are taken as they stand in their setting, with blanks and empty
    names; the two are equal exactly if there are none. -/
theorem effectiveConfig_readInvocation {args : List String} {i : Invocation}
    (hread : Invocation.read args none none = .ok i) (hnodes : i.globals.nodes = none)
    (hthreshold : i.globals.threshold = none) (setting? : String → Option String) :
    (∀ s, setting? Config.thresholdKey = some s → Double.read? s = none →
      readInvocation args setting? = .error .valueValidation) ∧
    ((∀ s, setting? Config.thresholdKey = some s → Double.read? s ≠ none) →
      ∃ j, readInvocation args setting? = .ok j ∧ j.request = i.request ∧
        effectiveConfig j.globals setting? =
          { Config.ofSettings setting? with
            consensusNodes := ((setting? Config.nodesKey).map (Text.splitText ',')).getD
              (Config.ofSettings setting?).consensusNodes } ∧
        (effectiveConfig j.globals setting? = Config.ofSettings setting? ↔
          ∀ s, setting? Config.nodesKey = some s → Config.IsTidy s)) := by
  have hfilled := Invocation.read_of_unset hread hnodes hthreshold (setting? Config.nodesKey)
    (setting? Config.thresholdKey)
  constructor
  · intro s hs hunread
    rw [readInvocation, hfilled, hs, readThreshold_of_unread hunread]
    rfl
  · intro hlegible
    rw [readThreshold_of_legible hlegible] at hfilled
    -- a threshold that reads is the one of the configuration, so that only the nodes can differ
    have hconfig : effectiveConfig { i.globals with
          nodes := (setting? Config.nodesKey).map (Text.splitText ',')
          threshold := (setting? Config.thresholdKey).bind Double.read? } setting? =
        { Config.ofSettings setting? with
          consensusNodes := ((setting? Config.nodesKey).map (Text.splitText ',')).getD
            (Config.ofSettings setting?).consensusNodes } := by
      unfold effectiveConfig
      dsimp only
      rw [getD_threshold_ofSettings hlegible]
    refine ⟨_, hfilled, rfl, hconfig, ?_⟩
    rw [hconfig]
    constructor
    · exact fun h => getD_nodes_ofSettings_iff.1 (congrArg Config.consensusNodes h)
    · intro h
      rw [getD_nodes_ofSettings_iff.2 h]

end Settings

/-- Settings for the nodes and the threshold alone. -/
def settingsFor (nodes threshold : Option String) (key : String) : Option String :=
  if key = Config.nodesKey then nodes
  else if key = Config.thresholdKey then threshold else none

/-- What `config show` asks for by itself. -/
def showing : Invocation := ⟨⟨none, none, .table, false⟩, .showConfig⟩

example : readInvocation ["config", "show"] (settingsFor none (some "most")) =
    .error .valueValidation := by rfl

/-- Two nodes and a threshold of one half, without a blank. -/
theorem effectiveConfig_showing :
    Invocation.read ["config", "show"] none none = .ok showing ∧
      ∃ j, readInvocation ["config", "show"] (settingsFor (some "n1,n2") (some "0.5")) = .ok j ∧
        effectiveConfig j.globals (settingsFor (some "n1,n2") (some "0.5")) =
          Config.ofSettings (settingsFor (some "n1,n2") (some "0.5")) := by
  have hread : Invocation.read ["config", "show"] none none = .ok showing := by rfl
  have hlegible : ∀ s, some "0.5" = some s → Double.read? s ≠ none := by
    rintro s ⟨⟩
    decide +kernel
  have htidy : ∀ s, some "n1,n2" = some s → Config.IsTidy s := by
    rintro s ⟨⟩
    decide +kernel
  obtain ⟨j, hj, -, -, hiff⟩ := (effectiveConfig_readInvocation hread rfl rfl
    (settingsFor (some "n1,n2") (some "0.5"))).2 hlegible
  exact ⟨hread, j, hj, hiff.2 htidy⟩

/-- Blanks around a name stay in the nodes of the command line, so that the two readings of one
    setting differ. -/
theorem not_effectiveConfig_spaced :
    ¬ ∀ (args : List String) (setting? : String → Option String) (i : Invocation),
      Invocation.read args none none = .ok i → i.globals.nodes = none →
        i.globals.threshold = none →
          ∃ j, readInvocation args setting? = .ok j ∧
            effectiveConfig j.globals setting? = Config.ofSettings setting? := by
  intro h
  obtain ⟨j, hj, heq⟩ := h ["config", "show"] (settingsFor (some "n1, n2 ,n3") none) showing
    (by rfl) rfl rfl
  have hspaced : readInvocation ["config", "show"] (settingsFor (some "n1, n2 ,n3") none) =
      .ok ⟨⟨some ["n1", " n2 ", "n3"], none, .table, false⟩, .showConfig⟩ := by rfl
  cases hspaced.symm.trans hj
  have hnodes : ["n1", " n2 ", "n3"] = ["n1", "n2", "n3"] := by
    calc ["n1", " n2 ", "n3"]
        = (Config.ofSettings (settingsFor (some "n1, n2 ,n3") none)).consensusNodes :=
          congrArg Config.consensusNodes heq
      _ = ["n1", "n2", "n3"] := by decide +kernel
  exact absurd hnodes (by decide)

end WitnessLedger.Command
