-- SUMMARY: An agent and its collector with the requests and replies between them, and what one event does to them.
import Mathlib
import Telemetry.Proofs.Agent.Amounts

/-!
# Traffic

An agent pushes in cycles, one after the other, while its instances are polled. A request is a flight of
the cycle until its reply is heeded. The collector handles requests in any order: it stores all records of
one and answers with success, or stores nothing and answers with a failure. Replies come in any order, and
the body of one may not come as a whole. The first failure ends the cycle; requests that are on their way
then are handled later, and nobody waits for their replies.
-/

namespace Telemetry.Agent

/-- The metrics that a request carries. -/
def Flight.metrics (f : Flight) : List Metric :=
  f.carried.map (·.2)

/-- The collector after it has stored all that a request carries, if it accepts the records. -/
def Flight.storeIn? (p : Pusher) (f : Flight) (c : Collector) : Option Collector :=
  match f.metrics.mapM p.converter.encode with
  | .error _ => none
  | .ok records =>
    match c.store records with
    | (.ok _, c) => some c
    | (.error _, _) => none

/-- The status says that all has been stored. -/
def isSuccess (status : Nat) : Bool :=
  200 ≤ status && status < 300

/-- The reply to a request that has been stored or not. A whole reply tells by its status which of the two
    it is. -/
def Reply.Tells (stored : Bool) : Reply → Prop
  | .response status _ => isSuccess status = stored
  | .brokenBody => True
  | .refused | .silence => False

/-- Whether a request has been stored, and the reply to it. -/
structure Answer where
  stored : Bool
  reply : Reply
  tells : reply.Tells stored

/-- A request of the cycle, and the answer if it has been handled. -/
structure Passage where
  flight : Flight
  answer : Option Answer

/-- What the collector has stored of a request. -/
def Passage.stored (q : Passage) : List Metric :=
  if q.answer.any (·.stored) then q.flight.metrics else []

/-- An agent, its collector, and all that is between them. -/
structure Traffic where
  agent : Instances
  cycle : Cycle
  /-- The requests of the cycle, in the order of its flights. -/
  passages : List Passage
  /-- Requests on their way whose cycle has failed. -/
  strays : List Flight
  collector : Collector
  /-- What has been stored of requests although their cycle failed. -/
  unheeded : List Metric

/-- What happens to an agent and its collector. -/
inductive Event where
  /-- An instance is set from a number. -/
  | poll (h : Handle) (x : Binary64)
  /-- A push of a list of instances begins. -/
  | start (handles : List Handle)
  /-- The next batch is sent. -/
  | launch
  /-- The collector handles a request. -/
  | handle (n : Nat) (answer : Answer)
  /-- The reply to a request comes. -/
  | receive (n : Nat)
  | storeStray (n : Nat)
  | refuseStray (n : Nat)

/-- The body of a reply, if there is one, comes as a whole. -/
def Event.IsWhole : Event → Prop
  | .handle _ answer => answer.reply ≠ .brokenBody
  | _ => True

namespace Traffic

/-- An agent that has sent nothing yet. -/
def idle (agent : Instances) (collector : Collector) : Traffic :=
  ⟨agent, ⟨[], [], none⟩, [], [], collector, []⟩

/-- No request and no reply is on its way. -/
def isQuiet (w : Traffic) : Bool :=
  w.passages.isEmpty && w.strays.isEmpty

/-! ## Events -/

/-- The cycle has failed: nobody waits for replies any more. -/
def abandon (w : Traffic) (cycle : Cycle) : Traffic :=
  { w with
    cycle
    passages := []
    strays := w.strays ++ (w.passages.filter (·.answer.isNone)).map (·.flight)
    unheeded := w.unheeded ++ w.passages.flatMap Passage.stored }

def launch (p : Pusher) (w : Traffic) : Traffic :=
  if w.cycle.canLaunch p then
    let cycle := w.cycle.launch p w.agent
    match cycle.failure with
    | none =>
      { w with
        cycle
        passages := w.passages ++ (cycle.flights.drop w.passages.length).map (⟨·, none⟩) }
    | some _ => w.abandon cycle
  else w

def receive (p : Pusher) (n : Nat) (w : Traffic) : Traffic :=
  match w.passages[n]? with
  | some ⟨_, some answer⟩ =>
    let (cycle, agent) := w.cycle.receive p n answer.reply w.agent
    match cycle.failure with
    | none => { w with agent, cycle, passages := w.passages.eraseIdx n }
    | some _ => { w with agent }.abandon cycle
  | _ => w

def handle (p : Pusher) (n : Nat) (answer : Answer) (w : Traffic) : Traffic :=
  match w.passages[n]? with
  | some ⟨flight, none⟩ =>
    let w' := { w with passages := w.passages.set n ⟨flight, some answer⟩ }
    if answer.stored then
      match flight.storeIn? p w.collector with
      | some collector => { w' with collector }
      | none => w
    else w'
  | _ => w

def storeStray (p : Pusher) (n : Nat) (w : Traffic) : Traffic :=
  match w.strays[n]? with
  | some flight =>
    match flight.storeIn? p w.collector with
    | some collector =>
      { w with
        collector
        strays := w.strays.eraseIdx n
        unheeded := w.unheeded ++ flight.metrics }
    | none => w
  | none => w

/-- What is left after an event. An event that cannot happen changes nothing. -/
def step (p : Pusher) (w : Traffic) : Event → Traffic
  | .poll h x => { w with agent := w.agent.update h (Value.set x) }
  | .start handles =>
    if w.cycle.work = 0 then { w with cycle := .start p handles } else w
  | .launch => w.launch p
  | .handle n answer => w.handle p n answer
  | .receive n => w.receive p n
  | .storeStray n => w.storeStray p n
  | .refuseStray n => { w with strays := w.strays.eraseIdx n }

def run (p : Pusher) (w : Traffic) (events : List Event) : Traffic :=
  events.foldl (step p) w

/-! ## Increments and exactness -/

/-- What an event adds to the counters of a name at the agent. -/
def increment (w : Traffic) (name : String) : Event → Int
  | .poll h x =>
    match w.agent.get? h with
    | some m => if Kind.counter = m.kind ∧ name = m.name then x.toInt64.toInt else 0
    | none => 0
  | _ => 0

/-- What the events of a run add to the counters of a name at the agent. -/
def increments (p : Pusher) (w : Traffic) (name : String) : List Event → Int
  | [] => 0
  | e :: events => w.increment name e + (w.step p e).increments p name events

/-- No sum that the event makes leaves the range. -/
def Fits (p : Pusher) (w : Traffic) : Event → Prop
  | .poll h x => ∀ m, w.agent.get? h = some m → m.value.CanChange x.toInt64.toInt
  | .handle n answer =>
    ∀ q, w.passages[n]? = some q → answer.stored → w.collector.CanStore q.flight.metrics
  | .receive n =>
    ∀ q answer, w.passages[n]? = some q → q.answer = some answer →
      answer.reply.verdict p.patience = .ok () → Cycle.CanSettle q.flight.carried w.agent
  | .storeStray n => ∀ f, w.strays[n]? = some f → w.collector.CanStore f.metrics
  | _ => True

/-- No sum that is made in a run leaves the range. -/
def Exact (p : Pusher) (w : Traffic) : List Event → Prop
  | [] => True
  | e :: events => w.Fits p e ∧ (w.step p e).Exact p events

end Traffic

end Telemetry.Agent
