-- SUMMARY: Name, version and build of the programs.
import Telemetry.Calendar
import Telemetry.Number.Reading

/-!
# Build information

What the programs say about themselves. The build time is given in seconds since 1970 and shown as a
date; a text that is no such time is shown as it is.
-/

namespace Telemetry

/-- The name under which the programs announce themselves. -/
def programName : String := "metrics-relay"

def programVersion : String := "0.1.0"

def programDescription : String :=
  "Host metrics agent and collector with counter/gauge semantics, durable backups and signed batch transport"

/-- Which build of the programs this is. -/
structure BuildInfo where
  version : String
  /-- Seconds since 1970 as text. -/
  buildTime : String
  gitHash : String
  deriving DecidableEq, Repr

namespace BuildInfo

/-- This build. Where it was built is not recorded. -/
def current : BuildInfo :=
  ⟨programVersion, "unknown", "unknown"⟩

/-- The date of the build. -/
def date (b : BuildInfo) : String :=
  match readInt64 b.buildTime with
  | .ok seconds =>
    let time := Timestamp.ofSeconds seconds.toInt
    if time.date.inRange then time.write else b.buildTime
  | .error _ => b.buildTime

/-- The build in one line. -/
def text (b : BuildInfo) : String :=
  "version " ++ b.version ++ ", built " ++ b.date ++ ", commit " ++ b.gitHash

end BuildInfo

end Telemetry
