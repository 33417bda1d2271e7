-- SUMMARY: The routes of a collector and the paths that lead to them.
import Telemetry.Text.Utf8
import Telemetry.Url.Percent

/-!
# Routes

A path is split at its slashes. Its segments are decoded in two passes: before the route is chosen all
escapes are decoded but those of the slash, the plus sign and the percent sign, and in the parts of a
route these too. The parts of a route are never empty, and most routes may end in one more slash.
-/

namespace Telemetry.Collector

/-- What a request is about. -/
inductive Route where
  /-- The page of all metrics. -/
  | page
  | ping
  /-- Update a metric that is named in the path. -/
  | updatePath (type name value : String)
  /-- Update with a record in the body. -/
  | updateOne
  /-- Update with a list of records in the body. -/
  | updateBatch
  /-- The value of a metric that is named in the path. -/
  | valuePath (type name : String)
  /-- The value of a metric that is named by a record in the body. -/
  | valueOne
  deriving DecidableEq, Repr

namespace Route

/-- The path of a target, without query and fragment. -/
def pathOf (target : String) : String :=
  String.ofList (target.toList.takeWhile fun c => c ≠ '?' && c ≠ '#')

/-- Decode the escapes of a text, those of some bytes excepted. -/
def decodeExcept (keep : UInt8 → Bool) (text : String) : String :=
  Utf8.decodeLossy (Url.percentDecode keep (Utf8.encode text))

/-- The escapes that are decoded only after the route has been chosen: those of the percent sign, the
    plus sign and the slash. -/
def isKept (byte : UInt8) : Bool :=
  byte = 0x25 || byte = 0x2b || byte = 0x2f

/-- A part of a path as it is meant. -/
def decodePart (text : String) : String :=
  decodeExcept (fun _ => false) text

/-- The segments of a path, the text before the first slash among them. -/
def segments (path : String) : List String :=
  (decodeExcept isKept path).splitOn "/"

/-- The segments without an empty one at the end. -/
def dropFinalSlash (segments : List String) : List String :=
  if segments.getLast? = some "" then segments.dropLast else segments

/-- The route of a path. -/
def ofPath? (path : String) : Option Route :=
  let segments := segments path
  match segments with
  | ["", ""] => some .page
  | ["", "metrics"] => some .page
  | _ =>
    match dropFinalSlash segments with
    | ["", "ping"] => some .ping
    | ["", "update"] => some .updateOne
    | ["", "updates"] => some .updateBatch
    | ["", "value"] => some .valueOne
    | ["", "update", type, name, value] =>
      if type.isEmpty || name.isEmpty || value.isEmpty then none
      else some (.updatePath (decodePart type) (decodePart name) (decodePart value))
    | ["", "value", type, name] =>
      if type.isEmpty || name.isEmpty then none
      else some (.valuePath (decodePart type) (decodePart name))
    | _ => none

/-- The method of a route. -/
def method : Route → String
  | page | ping | valuePath _ _ => "GET"
  | updatePath _ _ _ | updateOne | updateBatch | valueOne => "POST"

/-- The status of a request with another method. The page has no other methods to speak of. -/
def wrongMethodStatus : Route → Nat
  | page => 404
  | _ => 405

end Route

end Telemetry.Collector
