-- SUMMARY: The agent: it polls its provider and pushes to its collector, each at its own pace.
import Telemetry.Agent.Cycle
import Telemetry.Agent.Group
import Telemetry.Worker

/-!
# The agent

An agent refreshes its metrics again and again, and sends them again and again. Neither a refresh that
fails nor a push that fails stops it.
-/

namespace Telemetry

/-- How an agent refreshes and sends what belongs to a state. Either may depend on the time, in
    milliseconds since the start. -/
structure Agent (σ : Type) where
  update : Nat → σ → Outcome Unit × σ
  send : Nat → σ → Outcome Unit × σ
  /-- Milliseconds between two refreshes. -/
  pollInterval : Nat
  /-- Milliseconds between two pushes. -/
  reportInterval : Nat

namespace Agent

variable {σ : Type}

/-- Refresh the metrics once. -/
def poll (a : Agent σ) (time : Nat) (s : σ) : Outcome Unit × σ :=
  let (result, s) := a.update time s
  (within "update metrics" result, s)

/-- Send the metrics once. -/
def push (a : Agent σ) (time : Nat) (s : σ) : Outcome Unit × σ :=
  let (result, s) := a.send time s
  (within "push metrics" result, s)

-- ---------------------------------------------------------------------------
-- Running
-- ---------------------------------------------------------------------------

/-- What an agent does at a time. -/
inductive Task where
  | poll
  | push
  deriving DecidableEq, Repr

/-- Carry out a task, whatever comes of it. -/
def carryOut (a : Agent σ) (s : σ) : Nat × Task → σ
  | (time, .poll) => (a.poll time s).2
  | (time, .push) => (a.push time s).2

/-- The tasks of two workers by their times; at the same time metrics are refreshed before they are
    sent. -/
def timetable (polls pushes : List Nat) : List (Nat × Task) :=
  List.merge (polls.map (·, .poll)) (pushes.map (·, .push)) fun a b => a.1 ≤ b.1

/-- Run until a time. -/
def run (a : Agent σ) (stop : Nat) (s : σ) : Outcome Unit × σ :=
  match Worker.make "poll metrics" a.pollInterval, Worker.make "push metrics" a.reportInterval with
  | .error e, _ => (.error e, s)
  | _, .error e => (.error e, s)
  | .ok polling, .ok pushing =>
    (.ok (), (timetable (polling.starts stop []) (pushing.starts stop [])).foldl a.carryOut s)

-- ---------------------------------------------------------------------------
-- Building
-- ---------------------------------------------------------------------------

/-- The parts of an agent. -/
structure Parts where
  provider : Provider
  pusher : Pusher
  instances : Instances
  pollInterval : Nat
  reportInterval : Nat

/-- Build the parts that settings describe, on a machine with a number of processors. -/
def Parts.ofSettings (toAscii? : Url.ToAscii) (s : AgentSettings) (processors : Nat) :
    Outcome Parts := do
  let (runtime, t) ← Provider.runtime s.runtimeMetrics .empty
  let (custom, t) := Provider.custom t
  let (system, t) := Provider.system processors t
  let pusher ← within "create pusher" (Pusher.ofSettings toAscii? s)
  .ok
    { provider := .group [custom, runtime, system]
      pusher
      instances := t
      pollInterval := s.pollInterval * 1000
      reportInterval := s.reportInterval * 1000 }

/-- The agent made of parts, which reads the machine and meets an endpoint. A refresh that takes its time
    ends when it is cancelled. -/
def Parts.assemble (p : Parts) (read : Nat → Reading) (endpoint : Endpoint σ) :
    Agent (Instances × σ) where
  update time s :=
    let (result, t) := p.provider.update false (read time) s.1
    (result.getD (fail .cancelled), (t, s.2))
  send _ s := p.pusher.push endpoint false p.provider.metrics s.1 s.2
  pollInterval := p.pollInterval
  reportInterval := p.reportInterval

end Agent

end Telemetry
