import WitnessLedger.Text.Blank

/-! # Log levels

How much a ledger reports about what it does. -/

namespace WitnessLedger

/-- How much is reported, the least first. -/
inductive LogLevel where
  | error
  | warn
  | info
  | debug
  | trace
  deriving DecidableEq, Inhabited

namespace LogLevel

/-- All levels. -/
def all : List LogLevel := [error, warn, info, debug, trace]

/-- The name of a level. -/
def name : LogLevel → String
  | error => "error"
  | warn => "warn"
  | info => "info"
  | debug => "debug"
  | trace => "trace"

/-- The level with a given name. -/
def ofName? (s : String) : Option LogLevel := all.find? fun l => l.name == s

/-- The level that a setting names, in any case and with blanks around it; one level has a
    longer name as well.  No letter beyond ASCII has a lowercase form that occurs in a name. -/
def ofSetting? (s : String) : Option LogLevel :=
  match String.ofList ((Text.trim s.toList).map Char.toLower) with
  | "warning" => some warn
  | name => ofName? name

end LogLevel

end WitnessLedger
