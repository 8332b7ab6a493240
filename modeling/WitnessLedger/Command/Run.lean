import WitnessLedger.Command.Output

/-! # Running a command

Settings give the configuration, which the options of the command line override.  Every command
works on a fresh ledger. -/

namespace WitnessLedger.Command

/-- The configuration of the settings with the options of the command line. -/
def effectiveConfig (g : Globals) (setting? : String → Option String) : Config :=
  let c := Config.ofSettings setting?
  { c with consensusNodes := g.nodes.getD c.consensusNodes
           consensusThreshold := g.threshold.getD c.consensusThreshold }

/-- The effective configuration, if it is valid. -/
def resolveConfig (g : Globals) (setting? : String → Option String) : Except CommandError Config :=
  let c := effectiveConfig g setting?
  match c.validate with
  | .ok () => .ok c
  | .error e => .error (.configuration e)

/-- A session on a fresh ledger. -/
def openSession (g : Globals) (setting? : String → Option String) (suffixes : Suffixes)
    (now : Clock) : Except CommandError Session := do
  let c ← resolveConfig g setting?
  let ledger ← (Ledger.ofConfig c).mapError .configuration
  return { ledger, suffixes, now }

/-- What a command prints, and how it fails after that, if it does. -/
abbrev Result := Lines × Option CommandError

/-- The result of a command that prints nothing if it fails. -/
def resultOf {α : Type} (lines : α → Lines) : Except CommandError α → Result
  | .ok x => (lines x, none)
  | .error e => ([], some e)

/-- Runs a simulation; a broken chain is an error after the report. -/
def runSimulation (o : SimulationOptions) (format : Format) (s : Session) : Result :=
  match (Simulation.run o s).1 with
  | .ok report =>
    (simulationLines report format,
      if report.chainValid then none else some (.integrity .brokenChain))
  | .error e => ([], some e)

/-- Runs what a command line asks for. -/
def Invocation.run (i : Invocation) (setting? : String → Option String) (suffixes : Suffixes)
    (now : Clock) : Result :=
  let g := i.globals
  match i.request with
  | .showConfig => (configLines (effectiveConfig g setting?) g.format, none)
  | .validateConfig => resultOf (fun c => [confirmation c]) (resolveConfig g setting?)
  | .explainSettings => (settingLines g.format, none)
  | .demo =>
    resultOf (demoLines · g.format)
      ((openSession g setting? suffixes now).bind fun s => (Demo.run s).1)
  | .simulate o =>
    match openSession g setting? suffixes now with
    | .ok s => runSimulation o g.format s
    | .error e => ([], some e)

/-- Reads a command line, which some settings complete. -/
def readInvocation (args : List String) (setting? : String → Option String) :
    Except UsageError Invocation :=
  Invocation.read args (setting? Config.nodesKey) (setting? Config.thresholdKey)

end WitnessLedger.Command
