-- SUMMARY: What an agent sends to its collector, what comes back, and what it means.
import Telemetry.Duration
import Telemetry.Error
import Telemetry.Url.Basic

/-!
# Deliveries

A delivery is a request to the collector. It has arrived if a reply of success comes back in time and as a
whole. Everything else is an error.
-/

namespace Telemetry.Agent

/-- A request to the collector. -/
structure Delivery where
  url : Url
  contentType : String
  /-- How the body is packed; without one it is sent as it is. -/
  contentEncoding : Option String
  body : List UInt8
  deriving DecidableEq

/-- What comes of a delivery. -/
inductive Reply where
  | response (status : Nat) (body : String)
  /-- The connection ends without a response. -/
  | refused
  /-- A response begins, and its body does not arrive. -/
  | brokenBody
  /-- Nothing comes within the time that the agent waits. -/
  | silence
  deriving DecidableEq, Repr

namespace Reply

/-- Responses of a status have a body. -/
def hasBody (status : Nat) : Bool :=
  200 ≤ status && status ≠ 204 && status ≠ 304

/-- Whether a delivery has arrived, if replies are waited for some time. -/
def verdict (patience : Duration) : Reply → Outcome Unit
  | response status body =>
    if 200 ≤ status && status < 300 then .ok ()
    else fail (.unexpectedStatus status (if hasBody status then body else ""))
  | refused => fail (.httpClient "connection failed")
  | brokenBody => within "read response body" (fail (.httpClient "connection closed"))
  | silence => fail (.timeout ("no response within " ++ patience.exact))

end Reply

end Telemetry.Agent
