import WitnessLedger.Double.Reader
import WitnessLedger.Text.Split
import WitnessLedger.Text.Numeral

/-! # Command line arguments

A command line is a list of options, then the name of a command, then the options of the
command.  An option has a long and often a short name; its value follows it, or is attached to
it, with or without an equals sign.  Short options without a value can share one dash.

A value that stands by itself is read when the next option begins, or else after the command
that follows, so that a fault in the command is reported first. -/

namespace WitnessLedger.Command

/-- Why a command line is not understood, or what it asks for instead of a command. -/
inductive UsageError where
  | valueValidation
  | invalidValue
  | unknownArgument
  | argumentConflict
  | tooManyValues
  | invalidSubcommand
  | missingSubcommand
  | missingArgumentOrSubcommand
  | help
  | version
  deriving DecidableEq

/-- The name of a usage error. -/
def UsageError.name : UsageError → String
  | valueValidation => "ValueValidation"
  | invalidValue => "InvalidValue"
  | unknownArgument => "UnknownArgument"
  | argumentConflict => "ArgumentConflict"
  | tooManyValues => "TooManyValues"
  | invalidSubcommand => "InvalidSubcommand"
  | missingSubcommand => "MissingSubcommand"
  | missingArgumentOrSubcommand => "DisplayHelpOnMissingArgumentOrSubcommand"
  | help => "DisplayHelp"
  | version => "DisplayVersion"

/-- What an option does to the settings of a command. -/
inductive Effect (σ : Type) where
  /-- Takes no value. -/
  | flag (set : σ → σ)
  /-- Takes a value. -/
  | value (set : String → σ → Except UsageError σ)
  /-- Asks for something else than the command. -/
  | stop (request : UsageError)

/-- An option of a command. -/
structure Flag (σ : Type) where
  long : String
  short : Option Char
  /-- Whether it may occur more than once. -/
  repeatable : Bool
  effect : Effect σ

/-- What has been read of the options of a command. -/
structure Progress (σ : Type) where
  settings : σ
  /-- The long names of the options that have been read. -/
  seen : List String
  /-- The option whose value is to be read, and the value once it is there. -/
  pending : Option (Flag σ × Option String)

namespace Progress

variable {σ : Type}

/-- Lets an option take effect with a value; a flag needs none. -/
def apply (p : Progress σ) (flag : Flag σ) (value : String) : Except UsageError (Progress σ) :=
  if !flag.repeatable && p.seen.contains flag.long then .error .argumentConflict
  else
    let seen := p.seen ++ [flag.long]
    match flag.effect with
    | .flag set => .ok { p with settings := set p.settings, seen }
    | .value set => do return { p with settings := ← set value p.settings, seen }
    | .stop request => .error request

/-- Reads the value of the option that waits for it. -/
def settle (p : Progress σ) : Except UsageError (Progress σ) :=
  match p.pending with
  | none => .ok p
  | some (_, none) => .error .invalidValue
  | some (flag, some value) => { p with pending := none }.apply flag value

/-- Begins an option that has its value, or none. -/
def begin (p : Progress σ) (flag : Flag σ) (attached : Option String) :
    Except UsageError (Progress σ) := do
  let p ← p.settle
  match flag.effect, attached with
  | .value _, none => return { p with pending := some (flag, none) }
  | _, attached => p.apply flag (attached.getD "")

/-- Whether the value of an option is still to come. -/
def isWaiting (p : Progress σ) : Bool :=
  match p.pending with
  | some (_, none) => true
  | _ => false

/-- Takes an argument as the value that an option waits for. -/
def supply (p : Progress σ) (value : String) : Progress σ :=
  { p with pending := p.pending.map fun (flag, _) => (flag, some value) }

/-- Reads an argument that begins with two dashes. -/
def readLong (flags : List (Flag σ)) (p : Progress σ) (text : List Char) :
    Except UsageError (Progress σ) :=
  let name := String.ofList (text.takeWhile (· != '='))
  let attached := match text.dropWhile (· != '=') with
    | [] => none
    | _ :: value => some (String.ofList value)
  match flags.find? (·.long == name) with
  | none => .error .unknownArgument
  | some flag =>
    match flag.effect, attached with
    | .value _, _ => p.begin flag attached
    | _, none => p.begin flag none
    | _, some _ => .error .tooManyValues

/-- Reads the characters after a single dash. -/
def readShort (flags : List (Flag σ)) (p : Progress σ) : List Char → Except UsageError (Progress σ)
  | [] => .ok p
  | c :: rest =>
    match flags.find? (·.short == some c) with
    | none => .error .unknownArgument
    | some flag =>
      match flag.effect, rest with
      | .value _, [] => p.begin flag none
      | .value _, '=' :: value => p.begin flag (some (String.ofList value))
      | .value _, value => p.begin flag (some (String.ofList value))
      | _, rest => do readShort flags (← p.begin flag none) rest

end Progress

/-- The grammar of one command: its options and the names of the commands below it. -/
structure Grammar (σ : Type) where
  flags : List (Flag σ)
  subcommands : List String

namespace Grammar

variable {σ : Type}

/-- Why an argument that stands for itself is refused. -/
def refuse (g : Grammar σ) : UsageError :=
  if g.subcommands.isEmpty then .unknownArgument else .invalidSubcommand

/-- Refuses any argument after two dashes that stand alone. -/
def readTrailing (g : Grammar σ) (p : Progress σ) :
    List String → Except UsageError (Progress σ × Option (String × List String))
  | [] => .ok (p, none)
  | arg :: _ => .error (if g.subcommands.contains arg then .unknownArgument else g.refuse)

/-- Reads options up to the end, or up to the name of a command, which is given together with
    the arguments after it. -/
def read (g : Grammar σ) (p : Progress σ) :
    List String → Except UsageError (Progress σ × Option (String × List String))
  | [] => .ok (p, none)
  | arg :: rest =>
    -- An option that waits takes the name of a command as its value.
    if !p.isWaiting && g.subcommands.contains arg then .ok (p, some (arg, rest))
    else
      match arg.toList with
      | ['-', '-'] => g.readTrailing p rest
      | '-' :: '-' :: text => do g.read (← p.readLong g.flags text) rest
      | '-' :: c :: text => do g.read (← p.readShort g.flags (c :: text)) rest
      -- A single dash is a value like any other text.
      | _ => if p.isWaiting then g.read (p.supply arg) rest else .error g.refuse

end Grammar

/-- How reports are written. -/
inductive Format where
  | json
  | table
  | plain
  deriving DecidableEq

/-- What the options before a command set. -/
structure Globals where
  nodes : Option (List String)
  threshold : Option Double
  format : Format
  verbose : Bool

/-- What the options of a simulation set. -/
structure SimulationOptions where
  settlements : Nat
  blockSize : Nat
  doubleSpendEvery : Option Nat
  totalAtp : Int
  deriving DecidableEq

/-- What the command line asks for. -/
inductive Request where
  | demo
  | simulate (options : SimulationOptions)
  | showConfig
  | validateConfig
  | explainSettings

/-- A command line that is understood. -/
structure Invocation where
  globals : Globals
  request : Request

/-- The value of an option, or a usage error where it does not read. -/
def required {α : Type} : Option α → Except UsageError α
  | some x => .ok x
  | none => .error .valueValidation

/-- A format by its name. -/
def Format.ofName? : String → Option Format
  | "json" => some .json
  | "table" => some .table
  | "plain" => some .plain
  | _ => none

/-- Adds nodes to those that are set. -/
def Globals.addNodes (g : Globals) (value : String) : Globals :=
  { g with nodes := some (g.nodes.getD [] ++ Text.splitText ',' value) }

/-- Sets the threshold. -/
def Globals.setThreshold (value : String) (g : Globals) : Except UsageError Globals := do
  return { g with threshold := some (← required (Double.read? value)) }

/-- Asks for help. -/
def helpFlag (σ : Type) : Flag σ := ⟨"help", some 'h', false, .stop .help⟩

/-- The options before a command. -/
def globalFlags : List (Flag Globals) :=
  [ ⟨"nodes", some 'n', true, .value fun value g => .ok (g.addNodes value)⟩,
    ⟨"threshold", some 't', false, .value Globals.setThreshold⟩,
    ⟨"format", some 'f', false, .value fun value g =>
      match Format.ofName? value with
      | some format => .ok { g with format }
      | none => .error .invalidValue⟩,
    ⟨"verbose", some 'v', false, .flag fun g => { g with verbose := true }⟩,
    helpFlag Globals,
    ⟨"version", some 'V', false, .stop .version⟩]

namespace SimulationOptions

/-- The options of a simulation where none is given. -/
def standard : SimulationOptions := ⟨10, 5, none, 10000⟩

/-- The options of a simulation. -/
def flags : List (Flag SimulationOptions) :=
  let word (value : String) := required (Text.Numeral.readUnsigned? UInt64.size value.toList)
  [ ⟨"settlements", some 's', false, .value fun value o => do
      return { o with settlements := ← word value }⟩,
    ⟨"block-size", some 'b', false, .value fun value o => do
      return { o with blockSize := ← word value }⟩,
    ⟨"double-spend-every", some 'd', false, .value fun value o => do
      return { o with doubleSpendEvery := some (← word value) }⟩,
    ⟨"total-atp", none, false, .value fun value o => do
      return { o with totalAtp := ← required (Text.Numeral.readSigned? value.toList) }⟩,
    helpFlag SimulationOptions]

end SimulationOptions

/-- The commands below a path of commands, the request for help among them. -/
def subcommandsOf : List String → List String
  | [] => ["demo", "simulate", "config", "help"]
  | ["config"] => ["show", "validate", "env", "help"]
  | _ => []

/-- The answer to a request for help on a path of commands below another. -/
def helpOn (path : List String) : List String → UsageError
  | [] => .help
  | name :: rest =>
    if (subcommandsOf path).contains name then helpOn (path ++ [name]) rest else .invalidSubcommand

/-- Reads the arguments of a command that has only the option to ask for help. -/
def readBare (args : List String) : Except UsageError Unit := do
  let (p, _) ← Grammar.read ⟨[helpFlag Unit], []⟩ ⟨(), [], none⟩ args
  let _ ← p.settle

/-- Reads the arguments of a simulation. -/
def readSimulation (args : List String) : Except UsageError SimulationOptions := do
  let (p, _) ← Grammar.read ⟨SimulationOptions.flags, []⟩ ⟨.standard, [], none⟩ args
  return (← p.settle).settings

/-- Reads the arguments after `config`. -/
def readConfig (args : List String) : Except UsageError Request := do
  let (_, command) ← Grammar.read ⟨[helpFlag Unit], subcommandsOf ["config"]⟩ ⟨(), [], none⟩ args
  match command with
  | none => throw .missingArgumentOrSubcommand
  | some ("help", rest) => throw (helpOn ["config"] rest)
  | some (name, rest) =>
    readBare rest
    match name with
    | "show" => return .showConfig
    | "validate" => return .validateConfig
    | _ => return .explainSettings

/-- Reads a command with its arguments. -/
def readRequest (name : String) (args : List String) : Except UsageError Request :=
  match name with
  | "demo" => do readBare args; return .demo
  | "simulate" => do return .simulate (← readSimulation args)
  | "config" => readConfig args
  | _ => .error (helpOn [] args)

/-- Sets what no option has set to the value of a setting. -/
def withDefaults (p : Progress Globals) (nodes threshold : Option String) :
    Except UsageError (Progress Globals) := do
  let p := match nodes with
    | some value =>
      if p.seen.contains "nodes" then p
      else { p with settings := p.settings.addNodes value, seen := p.seen ++ ["nodes"] }
    | none => p
  match threshold with
  | some value =>
    if p.seen.contains "threshold" then return p
    else
      return { p with settings := ← Globals.setThreshold value p.settings
                      seen := p.seen ++ ["threshold"] }
  | none => return p

/-- Reads a command line; `nodes` and `threshold` stand in for options that are not given. -/
def Invocation.read (args : List String) (nodes threshold : Option String) :
    Except UsageError Invocation := do
  let (p, command) ← Grammar.read ⟨globalFlags, subcommandsOf []⟩
    ⟨⟨none, none, .table, false⟩, [], none⟩ args
  let request ← command.mapM fun (name, rest) => readRequest name rest
  -- The last value before the command is still to be read.
  let p ← withDefaults (← p.settle) nodes threshold
  match request with
  | some request => return ⟨p.settings, request⟩
  | none => throw (if p.seen.isEmpty then .missingArgumentOrSubcommand else .missingSubcommand)

end WitnessLedger.Command
