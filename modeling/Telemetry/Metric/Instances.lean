-- SUMMARY: Shared metric instances: a growing table of metrics that several holders refer to by handle.
import Telemetry.Metric.Basic

/-!
# Shared instances

Stores, providers and requests hold the same metric at the same time, and an update through one holder
shows to all. A handle names an instance; the table of instances holds the current metrics. Names never
change, and no instance is ever removed.
-/

namespace Telemetry

/-- The number of an instance in its table. -/
abbrev Handle := Nat

/-- The current state of all instances. -/
structure Instances where
  cells : Array Metric
  deriving Inhabited

namespace Instances

/-- No instances yet. -/
def empty : Instances := ⟨#[]⟩

/-- The metric behind a handle. -/
def get? (t : Instances) (h : Handle) : Option Metric :=
  t.cells[h]?

/-- A new instance and its handle. -/
def alloc (t : Instances) (m : Metric) : Handle × Instances :=
  (t.cells.size, ⟨t.cells.push m⟩)

/-- New instances for a list of metrics, handles in the same order. -/
def allocAll (t : Instances) : List Metric → List Handle × Instances
  | [] => ([], t)
  | m :: rest =>
    let (h, t) := t.alloc m
    let (hs, t) := t.allocAll rest
    (h :: hs, t)

/-- Change the value of an instance. -/
def update (t : Instances) (h : Handle) (f : Value → Value) : Instances :=
  ⟨t.cells.modify h (Metric.update f)⟩

/-- The metrics behind a list of handles. -/
def metrics (t : Instances) (handles : List Handle) : List Metric :=
  handles.filterMap t.get?

/-- Let the current metrics of instances be stored. The instances themselves are given back. -/
def storeBy {σ : Type} (t : Instances) (store : List Metric → σ → Outcome Unit × σ)
    (handles : List Handle) (s : σ) : Outcome (List Handle) × σ :=
  let (result, s) := store (t.metrics handles) s
  (result.map fun _ => handles, s)

end Instances

end Telemetry
