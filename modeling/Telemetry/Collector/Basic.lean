-- SUMMARY: The collector: how requests are answered from its storage.
import Telemetry.BuildInfo
import Telemetry.Collector.Route
import Telemetry.Http.Body
import Telemetry.Page
import Telemetry.Store.Storage
import Telemetry.Wire.Converter

/-!
# The collector

A collector keeps a storage and converts the records that it is sent and answers with. A list of records
is stored only if all of them are accepted. An error is answered with its status and the text of its
cause.
-/

namespace Telemetry

/-- A running collector. -/
structure Collector where
  storage : Storage
  converter : Wire.Converter

namespace Collector

open Http

/-- The name that stands in every answer. -/
def serverName : String :=
  programName ++ "/" ++ programVersion

/-- The id that a client gave its request; without one the request gets a fresh id. -/
def requestId? (r : Request) : Option String :=
  r.header? "x-request-id"

/-- The answer to a request that failed. -/
def errorResponse (e : Error) : Response :=
  .text e.status e.cause.message

/-- The answer of an outcome. -/
def response {α : Type} (write : α → Response) : Outcome α → Response
  | .ok x => write x
  | .error e => errorResponse e

-- ---------------------------------------------------------------------------
-- Updates
-- ---------------------------------------------------------------------------

/-- The record of an update in a path. -/
def pathRecord (type name raw : String) : Outcome Wire.Record := do
  let kind ← Kind.read type
  match ← Value.read kind raw with
  | .counter delta => .ok (.counter name delta)
  | .gauge value => .ok (.gauge name value)

/-- Store metrics as new instances. The results are the stored instances in the same order. -/
def addMetrics (c : Collector) (metrics : List Metric) : Outcome (List Handle) × Collector :=
  let (handles, instances) := c.storage.instances.allocAll metrics
  let (stored, storage) := { c.storage with instances }.add handles
  (stored, { c with storage })

/-- Store what records stand for, once all of them have been accepted, and answer with the records of
    the stored values. -/
def store (c : Collector) (records : List Wire.Record) : Outcome (List Wire.Record) × Collector :=
  match records.mapM c.converter.decode with
  | .error e => (.error e, c)
  | .ok metrics =>
    let (stored, c) := c.addMetrics metrics
    (stored.bind fun handles => (c.storage.instances.metrics handles).mapM c.converter.encode, c)

/-- Store an update that stands in a path. -/
def updatePath (c : Collector) (type name raw : String) : Outcome Unit × Collector :=
  match pathRecord type name raw >>= c.converter.decode with
  | .error e => (.error e, c)
  | .ok metric =>
    let (stored, c) := c.addMetrics [metric]
    (stored.map fun _ => (), c)

-- ---------------------------------------------------------------------------
-- Queries
-- ---------------------------------------------------------------------------

/-- The current metric of a type and a name. -/
def find (c : Collector) (type name : String) : Outcome Metric := do
  let handle ← c.storage.get type name
  match c.storage.instances.get? handle with
  | some metric => .ok metric
  | none => fail (.notFound type name)

/-- The record of the metric that a record asks for. -/
def valueRecord (c : Collector) (query : Wire.Record) : Outcome Wire.Record := do
  if query.id.isEmpty then fail (.validation "metric id is empty")
  if query.type.isEmpty then fail (.validation "metric type is empty")
  let kind ← Kind.read query.type
  c.converter.encode (← c.find kind.name query.id)

-- ---------------------------------------------------------------------------
-- Requests
-- ---------------------------------------------------------------------------

/-- Answer a request to a route with the method of the route. -/
def respondAt (c : Collector) (r : Request) : Route → Response × Collector
  | .page => (.html (Page.write c.storage.snapshot), c)
  | .ping => (response (fun _ => .text 200 "ok") c.storage.ping, c)
  | .updatePath type name raw =>
    let (result, c) := c.updatePath type name raw
    (response (fun _ => .text 200 "ok") result, c)
  | .updateOne =>
    match r.readJson Wire.Record.ofJson? with
    | .error fault => (fault.response, c)
    | .ok record =>
      let (result, c) := c.store [record]
      (response (fun records => .json (String.join (records.map Wire.Record.write))) result, c)
  | .updateBatch =>
    match r.readJson Wire.Record.listOfJson? with
    | .error fault => (fault.response, c)
    | .ok records =>
      let (result, c) := c.store records
      (response (fun records => .json (Wire.Record.writeAll records)) result, c)
  | .valuePath type name => (response (fun m => .text 200 m.value.text) (c.find type name), c)
  | .valueOne =>
    match r.readJson Wire.Record.ofJson? with
    | .error fault => (fault.response, c)
    | .ok query => (response (fun record => .json record.write) (c.valueRecord query), c)

/-- Answer a request. -/
def respond (c : Collector) (r : Request) : Response × Collector :=
  match Route.ofPath? (Route.pathOf r.target) with
  | none => (.empty 404, c)
  | some route =>
    if r.method = route.method then c.respondAt r route
    else (.empty route.wrongMethodStatus, c)

end Collector

end Telemetry
