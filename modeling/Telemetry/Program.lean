-- SUMMARY: The two programs, collector and agent, from their command lines to their ends.
import Telemetry.Agent.Basic
import Telemetry.BuildInfo
import Telemetry.Collector.Service
import Telemetry.Settings.EnvironmentFile
import Telemetry.Settings.Load

/-!
# Programs

Both programs read their environment file, their command line and their settings, and then work until a
signal comes. The collector makes a last backup on either signal. The agent ends in order on an interrupt
and does not heed the other.
-/

namespace Telemetry

/-- A signal to a running program. -/
inductive Signal where
  | interrupt
  | terminate
  deriving DecidableEq, Repr

/-- With what a program is started, and the signal that it gets once it works. -/
structure Launch where
  arguments : List String
  environment : Settings.Environment
  network : Network
  signal : Signal

/-- How a program ends. -/
inductive Ending where
  | help
  | version (text : String)
  /-- The command line is not understood. -/
  | usage (fault : Settings.UsageFault)
  | failed (e : Error)
  | finished
  /-- The program has not heeded the signal. -/
  | killed

namespace Ending

/-- The exit code; a program that is killed has none. -/
def code? : Ending → Option Nat
  | help | version _ | finished => some 0
  | failed _ => some 1
  | usage _ => some 2
  | killed => none

/-- The ending that a fault of the command line leads to. -/
def ofFault (programName : String) : Settings.UsageFault → Ending
  | .displayHelp => help
  | .displayVersion => version (programName ++ " " ++ programVersion ++ "\n")
  | fault => usage fault

end Ending

namespace Program

/-- The path of the environment file. -/
def environmentPath : String := ".env"

/-- The environment of a program, with what the environment file adds. -/
def environment (launch : Launch) (disk : Disk) : Settings.Environment :=
  match (disk.read environmentPath).toOption.bind Utf8.decode? with
  | some text => Settings.EnvironmentFile.apply launch.environment text
  | none => launch.environment

/-- The settings of a program, or how it ends without them. -/
def configure {α : Type} (name : String) (flags : List Settings.Flag)
    (load : Settings.Given → Disk → Outcome α) (launch : Launch) (disk : Disk) : Except Ending α :=
  match Settings.readGiven flags launch.arguments (environment launch disk) with
  | .error fault => .error (.ofFault name fault)
  | .ok given => (load given disk).mapError .failed

/-- The ending of what a program does. -/
def endingOf : Outcome Unit → Ending
  | .ok () => .finished
  | .error e => .failed e

/-- The settings of a collector. -/
def configureCollector : Launch → Disk → Except Ending CollectorSettings :=
  configure "collector" CollectorSettings.flags CollectorSettings.load

/-- The settings of an agent. -/
def configureAgent : Launch → Disk → Except Ending AgentSettings :=
  configure "agent" AgentSettings.flags AgentSettings.load

/-- A collector that gets its signal as soon as it serves. -/
def runCollector (launch : Launch) (site : Site) : Ending × Site :=
  match configureCollector launch site.disk with
  | .error ending => (ending, site)
  | .ok settings =>
    match Collector.Service.start settings launch.network site with
    | (.error e, site) => (.failed e, site)
    | (.ok service, _) =>
      let (result, site) := service.stop
      (endingOf result, site)

/-- An agent that gets its signal before it has polled anything. -/
def runAgent (toAscii? : Url.ToAscii) (launch : Launch) (site : Site) : Ending × Site :=
  match configureAgent launch site.disk with
  | .error ending => (ending, site)
  | .ok settings =>
    match Agent.Parts.ofSettings toAscii? settings 1, launch.signal with
    | .error e, _ => (.failed e, site)
    | .ok _, .interrupt => (.finished, site)
    | .ok _, .terminate => (.killed, site)

end Program

end Telemetry
