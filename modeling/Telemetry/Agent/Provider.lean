-- SUMMARY: Providers: groups of metrics that are refreshed together, and those that an agent has.
import Telemetry.Agent.RuntimeStat
import Telemetry.Metric.Instances

/-!
# Providers

A provider owns instances of metrics and refreshes all of them in one update. An update may be cancelled,
and it may take its time. The providers of an agent measure the program itself, its process and its host.
-/

namespace Telemetry.Agent

/-- What is measured of a host at one time. -/
structure HostSample where
  totalMemory : Nat
  freeMemory : Nat
  /-- The utilisation of each processor. -/
  cpuUtilization : List Binary64
  deriving DecidableEq

/-- What an update can read from the machine. -/
structure Reading where
  /-- A number from zero to one by chance. -/
  chance : Binary64
  process : ProcessSample
  host : HostSample
  deriving DecidableEq

/-- A named group of metrics that are refreshed together. -/
structure Provider where
  name : String
  metrics : List Handle
  /-- Look how far an update is: its result, or nothing while it takes its time. -/
  update : (cancelled : Bool) → Reading → Instances → Option (Outcome Unit) × Instances

namespace Provider

/-- Set those metrics that have been measured. -/
def setMeasured (gauges : List (Handle × (Reading → Option Binary64))) (r : Reading) (t : Instances) :
    Instances :=
  gauges.foldl
    (fun t (h, measure) =>
      match measure r with
      | some x => t.update h (Value.set x)
      | none => t)
    t

/-- A provider whose updates are a single measurement. -/
def measuring (name : String) (gauges : List (Handle × (Reading → Option Binary64))) : Provider where
  name
  metrics := gauges.map (·.1)
  update cancelled r t :=
    if cancelled then (some (fail .cancelled), t) else (some (.ok ()), setMeasured gauges r t)

/-- New metrics with their measurements. -/
def allocMeasured (t : Instances) (measured : List (Metric × (Reading → Option Binary64))) :
    List (Handle × (Reading → Option Binary64)) × Instances :=
  let (handles, t) := t.allocAll (measured.map (·.1))
  (handles.zip (measured.map (·.2)), t)

/-- A gauge that nothing has been measured for yet. -/
def newGauge (name : String) : Metric :=
  ⟨name, .zero .gauge⟩

-- ---------------------------------------------------------------------------
-- The providers of an agent
-- ---------------------------------------------------------------------------

/-- The count of the updates, and a number by chance. -/
def custom (t : Instances) : Provider × Instances :=
  let (gauges, t) := allocMeasured t
    [(⟨"PollCount", .zero .counter⟩, fun _ => some (.ofNat 1)),
      (newGauge "RandomValue", fun r => some r.chance)]
  (measuring "custom" gauges, t)

/-- Statistics of the process. -/
def ofStats (stats : List RuntimeStat) (t : Instances) : Provider × Instances :=
  let (gauges, t) := allocMeasured t
    (stats.map fun stat => (newGauge stat.name, fun (r : Reading) => some (stat.valueIn r.process)))
  (measuring "runtime" gauges, t)

/-- The named statistics of the process. -/
def runtime (names : List String) (t : Instances) : Outcome (Provider × Instances) := do
  let stats ← within "create runtime metrics provider" (names.mapM RuntimeStat.read)
  .ok (ofStats stats t)

/-- The memory of the host and the utilisation of its processors. -/
def system (processors : Nat) (t : Instances) : Provider × Instances :=
  let (gauges, t) := allocMeasured t
    ([(newGauge "TotalMemory", fun (r : Reading) => some (.ofNat r.host.totalMemory)),
      (newGauge "FreeMemory", fun r => some (.ofNat r.host.freeMemory))]
      ++ (List.range processors).map fun n =>
        (newGauge ("CPUutilization" ++ toString (n + 1)),
          fun (r : Reading) => r.host.cpuUtilization[n]?))
  (measuring "system" gauges, t)

end Provider

end Telemetry.Agent
