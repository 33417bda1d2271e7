-- SUMMARY: Levels and formats of the log.
import Telemetry.Error
import Telemetry.Text.Letters

/-!
# Log levels

A level admits the events of its own and of all graver levels. Levels and formats are named in any case.
-/

namespace Telemetry.Log

/-- How grave an event is. -/
inductive Level where
  | trace
  | debug
  | info
  | warn
  | error
  deriving DecidableEq, Repr

namespace Level

/-- All levels, the gravest first. -/
def all : List Level := [error, warn, info, debug, trace]

def name : Level → String
  | trace => "trace"
  | debug => "debug"
  | info => "info"
  | warn => "warn"
  | error => "error"

/-- The name of a level in capital letters. -/
def capitals (l : Level) : String :=
  l.name.toUpper

/-- How much a level admits. -/
def rank : Level → Nat
  | error => 1
  | warn => 2
  | info => 3
  | debug => 4
  | trace => 5

/-- The level with a name in small letters. -/
def ofName? (name : String) : Option Level :=
  all.find? fun l => l.name == name

/-- The level that a text names in any case. -/
def read (text : String) : Outcome Level :=
  match Text.upper text with
  | "TRACE" => .ok trace
  | "DEBUG" => .ok debug
  | "INFO" => .ok info
  | "WARN" | "WARNING" => .ok warn
  | "ERROR" => .ok error
  | _ => fail (.config ("Invalid log level: " ++ text))

end Level

/-- How events are written. -/
inductive Format where
  | text
  | json
  deriving DecidableEq, Repr

namespace Format

/-- The format with a name in small letters. -/
def ofName? (name : String) : Option Format :=
  match name with
  | "text" => some text
  | "json" => some json
  | _ => none

def name : Format → String
  | text => "text"
  | json => "json"

/-- The format that a text names in any case. -/
def read (raw : String) : Outcome Format :=
  match Text.lower raw with
  | "text" | "pretty" => .ok text
  | "json" => .ok json
  | _ => fail (.config ("Invalid log format: " ++ raw))

/-- The names of the parts of a line, where the format names them. -/
def parts : Format → List String
  | text => []
  | json => ["fields", "level", "line_number", "threadId", "timestamp"]

end Format

end Telemetry.Log
