-- SUMMARY: One push of all metrics: deliveries on their way, their replies, and what is settled.
import Telemetry.Agent.Pusher

/-!
# Push cycles

A push sends its batches in order, as many at the same time as the pusher allows. The values of a batch are
read when it is sent. When it has arrived, these values, and not those of the moment, are taken away from
its counters. The first failure ends the push: the batches that wait are not sent, and no reply to those on
their way is heeded. Deliveries on their way at the same time are answered in any order.
-/

namespace Telemetry.Agent

/-- A delivery on its way, with the instances of its batch and the values that it carries. -/
structure Flight where
  delivery : Delivery
  carried : List (Handle × Metric)

/-- How far a push has got. -/
structure Cycle where
  waiting : List (List Handle)
  flights : List Flight
  failure : Option Error

/-- What deliveries are sent to, with a state of its own. -/
structure Endpoint (σ : Type) where
  /-- Which delivery is answered next, counted from the one sent first, if so many others are on their way
      with it. -/
  next : σ → (others : Nat) → Fin (others + 1)
  /-- The reply to a delivery. The instances may change before it comes. -/
  answer : Delivery → Instances × σ → Reply × Instances × σ

namespace Cycle

/-- The push of a list of instances before anything has been sent. -/
def start (p : Pusher) (handles : List Handle) : Cycle :=
  ⟨p.batches handles, [], none⟩

/-- The push after a failure. -/
def failed (e : Error) : Cycle :=
  ⟨[], [], some e⟩

-- ---------------------------------------------------------------------------
-- Steps
-- ---------------------------------------------------------------------------

/-- A batch can be sent. -/
def canLaunch (p : Pusher) (c : Cycle) : Bool :=
  !c.waiting.isEmpty && c.flights.length < p.parallel

/-- Send the next batch with the values that its instances have now. -/
def launch (p : Pusher) (t : Instances) (c : Cycle) : Cycle :=
  match c.waiting with
  | [] => c
  | batch :: rest =>
    let carried := batch.filterMap fun h => (t.get? h).map fun m => (h, m)
    match p.delivery (carried.map (·.2)) with
    | .ok delivery => { c with waiting := rest, flights := c.flights ++ [⟨delivery, carried⟩] }
    | .error e => failed e

/-- Take what has arrived away from the counters. -/
def settle (carried : List (Handle × Metric)) (t : Instances) : Instances :=
  carried.foldl (fun t (h, m) => t.update h (Value.settle m.value)) t

/-- Heed the reply to one of the deliveries on their way. -/
def receive (p : Pusher) (n : Nat) (reply : Reply) (c : Cycle) (t : Instances) : Cycle × Instances :=
  match c.flights[n]? with
  | none => (c, t)
  | some flight =>
    let context := p.context (flight.carried.map (·.2))
    match within context (reply.verdict p.patience) with
    | .ok () => ({ c with flights := c.flights.eraseIdx n }, settle flight.carried t)
    | .error e => (failed e, t)

-- ---------------------------------------------------------------------------
-- Progress
-- ---------------------------------------------------------------------------

/-- What is left to do: every batch is sent and then heard of. -/
def work (c : Cycle) : Nat :=
  2 * c.waiting.length + c.flights.length

theorem work_launch_lt {p : Pusher} {c : Cycle} (t : Instances) (h : c.canLaunch p) :
    (c.launch p t).work < c.work := by
  unfold canLaunch at h
  unfold launch
  split <;> rename_i hw
  · simp [hw] at h
  · dsimp only
    split
    · simp only [work, hw, List.length_cons, List.length_append, List.length_nil]
      omega
    · simp only [work, failed, hw, List.length_cons, List.length_nil]
      omega

theorem work_receive_lt {p : Pusher} {c : Cycle} {n : Nat} (reply : Reply) (t : Instances)
    (h : n < c.flights.length) : (c.receive p n reply t).1.work < c.work := by
  have hflight : c.flights[n]? = some c.flights[n] := List.getElem?_eq_getElem h
  simp only [receive, hflight]
  split
  · simp only [work, List.length_eraseIdx_of_lt h]
    omega
  · simp only [work, failed, List.length_nil]
    omega

-- ---------------------------------------------------------------------------
-- Whole pushes
-- ---------------------------------------------------------------------------

/-- Push to the end, with the replies of an endpoint. As many batches are sent as may be on their way before
    a reply is waited for. -/
def run {σ : Type} (p : Pusher) (endpoint : Endpoint σ) (c : Cycle) (t : Instances) (s : σ) :
    Outcome Unit × Instances × σ :=
  match c.failure with
  | some e => (.error e, t, s)
  | none =>
    if _h : c.canLaunch p then run p endpoint (c.launch p t) t s
    else
      match _hf : c.flights with
      | [] => (.ok (), t, s)
      | first :: others =>
        let n := endpoint.next s others.length
        let (reply, t, s) := endpoint.answer (first :: others)[n].delivery (t, s)
        let next := c.receive p n reply t
        run p endpoint next.1 next.2 s
termination_by c.work
decreasing_by
  · exact work_launch_lt t _h
  · exact work_receive_lt _ _ (by rw [_hf]; exact n.isLt)

end Cycle

/-- Push a list of instances. A push that is cancelled before it begins sends nothing. -/
def Pusher.push {σ : Type} (p : Pusher) (endpoint : Endpoint σ) (cancelled : Bool)
    (handles : List Handle) (t : Instances) (s : σ) : Outcome Unit × Instances × σ :=
  if cancelled then (fail .cancelled, t, s) else (Cycle.start p handles).run p endpoint t s

end Telemetry.Agent
