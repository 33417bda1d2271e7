-- SUMMARY: Updates of several providers at the same time, of which the first failure cancels the others.
import Telemetry.Agent.Merge
import Telemetry.Agent.Provider

/-!
# Group updates

The providers of a group are updated at the same time. A failure cancels those that still take their time.
In a small group it ends the update at once. In a large one the results are taken in the order of the
providers, so that a failure ends the update only when all providers before it have finished.
-/

namespace Telemetry.Agent

/-- How far the update of a provider is. -/
inductive Stage where
  /-- It has not begun. -/
  | idle
  /-- It takes its time. -/
  | waiting
  | finished (result : Outcome Unit)

namespace Stage

def isFinished : Stage → Bool
  | finished _ => true
  | _ => false

/-- The update has begun. -/
def hasBegun : Stage → Bool
  | idle => false
  | _ => true

/-- The error of an update that failed. -/
def error? : Stage → Option Error
  | finished (.error e) => some e
  | _ => none

end Stage

/-- How far the update of a group is, and whether it is cancelled. -/
structure GroupUpdate where
  stages : List Stage
  cancelled : Bool

namespace GroupUpdate

/-- The update of a number of providers before it begins. -/
def start (size : Nat) (cancelled : Bool) : GroupUpdate :=
  ⟨List.replicate size .idle, cancelled⟩

/-- The greatest number of providers in a small group. -/
def smallSize : Nat := 30

-- ---------------------------------------------------------------------------
-- Results
-- ---------------------------------------------------------------------------

/-- The result of updates that are taken in order, as soon as it is known. -/
def orderedVerdict? : List Stage → Option (Outcome Unit)
  | [] => some (.ok ())
  | .finished (.ok ()) :: rest => orderedVerdict? rest
  | .finished (.error e) :: _ => some (.error e)
  | _ :: _ => none

/-- The result of updates of which any failure counts at once, as soon as it is known. -/
def promptVerdict? (stages : List Stage) : Option (Outcome Unit) :=
  match stages.findSome? Stage.error? with
  | some e => some (.error e)
  | none => if stages.all Stage.isFinished then some (.ok ()) else none

/-- The result of the whole update, as soon as it is known. -/
def verdict? (g : GroupUpdate) : Option (Outcome Unit) :=
  if g.stages.length ≤ smallSize then promptVerdict? g.stages else orderedVerdict? g.stages

-- ---------------------------------------------------------------------------
-- Steps
-- ---------------------------------------------------------------------------

/-- Note what a look at one of the updates has found. -/
def note (g : GroupUpdate) (n : Nat) : Option (Outcome Unit) → GroupUpdate
  | none => { g with stages := g.stages.set n .waiting }
  | some (.ok ()) => { g with stages := g.stages.set n (.finished (.ok ())) }
  | some (.error e) => ⟨g.stages.set n (.finished (.error e)), true⟩

/-- Look at the update of a provider, unless it has finished or the whole result is known. -/
def look (providers : List Provider) (r : Reading) (s : GroupUpdate × Instances) (n : Nat) :
    GroupUpdate × Instances :=
  let (g, t) := s
  match g.verdict?, providers[n]?, g.stages[n]? with
  | none, some provider, some stage =>
    if stage.isFinished then s
    else
      let (found, t) := provider.update g.cancelled r t
      let context := "update " ++ provider.name ++ " metrics"
      (g.note n (found.map (within context)), t)
  | _, _, _ => s

/-- Look at all updates in turn, a number of times. -/
def rounds (providers : List Provider) (r : Reading) : Nat → GroupUpdate × Instances →
    GroupUpdate × Instances
  | 0, s => s
  | count + 1, s =>
    rounds providers r count ((List.range providers.length).foldl (look providers r) s)

end GroupUpdate

/-- Update a group of providers. After as many rounds as there are providers, and one, either the result
    is known or nothing more will happen until the update is cancelled. -/
def updateGroup (providers : List Provider) (cancelled : Bool) (r : Reading) (t : Instances) :
    GroupUpdate × Instances :=
  GroupUpdate.rounds providers r (providers.length + 1) (.start providers.length cancelled, t)

/-- A group of providers as one provider. -/
def Provider.group (providers : List Provider) : Provider where
  name := "aggregate"
  metrics := mergeAll (providers.map (·.metrics))
  update cancelled r t :=
    let (g, t) := updateGroup providers cancelled r t
    (g.verdict?, t)

end Telemetry.Agent
