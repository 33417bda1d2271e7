-- SUMMARY: The logger of a process, which can be installed once.
import Telemetry.Log.Filter

/-!
# The logger

A process installs its logger once, with the filter that its surroundings ask for, or else with the one
of the configured level. A second installation fails and changes nothing.
-/

namespace Telemetry.Log

/-- An installed logger. -/
structure Logger where
  filter : Filter
  format : Format
  deriving DecidableEq, Repr

namespace Logger

/-- The filter that a text asks for; without a readable one, the filter of a level. -/
def chooseFilter (asked : Option String) (level : Level) : Filter :=
  match asked.bind Filter.read? with
  | some filter => filter
  | none => (Filter.read? (Filter.defaultText level)).getD ⟨[]⟩

/-- Install a logger. -/
def install (asked : Option String) (level : Option Level) (format : Format) :
    Option Logger → Outcome Unit × Option Logger
  | none => (.ok (), some ⟨chooseFilter asked (level.getD .info), format⟩)
  | some logger =>
    (fail (.config
      "failed to init logger: a global default trace dispatcher has already been set"), some logger)

/-- The line of an event. A text has no level of its own. -/
def line (l : Logger) (level : Level) (message : String) : String :=
  match l.format with
  | .text => message
  | .json => level.capitals ++ " " ++ message

/-- The lines that events leave in the log. An event is a target, a level and a message. -/
def lines (l : Logger) (events : List (String × Level × String)) : List String :=
  events.filterMap fun (target, level, message) =>
    if l.filter.admits target level then some (l.line level message) else none

end Logger

end Telemetry.Log
