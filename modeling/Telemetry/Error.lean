-- SUMMARY: Errors: a cause, and the operations during which it arose.
import Telemetry.Text.Hex

/-!
# Errors

An error is a cause together with the descriptions of the operations around it, the outermost first.
Its message lists these and ends with the text of the cause. What a client is told depends on the
cause alone.
-/

namespace Telemetry

/-- What went wrong. The argument of the causes that come from outside, such as `io`, is a detail for
    the reader of a log. -/
inductive Cause where
  /-- A record or request is not acceptable. -/
  | validation (message : String)
  /-- The value that the type of a record asks for is absent. -/
  | valueMissing (id : String)
  | unknownType (type : String)
  | notFound (type name : String)
  /-- The signature of a record is not the one of its content. -/
  | invalidSignature (id : String)
  | signatureDecode (fault : HexFault)
  | missingKey
  | recordType
  | recordName
  | recordValue
  | unknownStat (name : String)
  | storage (message : String)
  | database (detail : String)
  | io (detail : String)
  | serialization (detail : String)
  | yaml (detail : String)
  | httpClient (detail : String)
  | unexpectedStatus (status : Nat) (body : String)
  | timeout (message : String)
  | cancelled
  | config (message : String)
  | parsing (message : String)
  | internal (message : String)
  deriving DecidableEq, Repr

/-- A cause and the operations around it, the outermost first. -/
structure Error where
  contexts : List String
  cause : Cause
  deriving DecidableEq, Repr

/-- A result, or the error that prevented it. -/
abbrev Outcome (α : Type) := Except Error α

-- ---------------------------------------------------------------------------
-- Messages
-- ---------------------------------------------------------------------------

def Cause.message : Cause → String
  | validation message => "validation error: " ++ message
  | valueMissing id => "metric value is missing: " ++ id
  | unknownType type => "unknown metric type: " ++ type
  | notFound type name => "metric not found: " ++ type ++ "/" ++ name
  | invalidSignature id => "invalid signature for metric " ++ id
  | signatureDecode fault => "signature decode error: " ++ fault.message
  | missingKey => "signing key is not configured"
  | recordType => "invalid record: metric type is not set"
  | recordName => "invalid record: metric name is not set"
  | recordValue => "invalid record: metric value is not set"
  | unknownStat name => "unknown runtime stat name: " ++ name
  | storage message => "storage error: " ++ message
  | database detail => "database error: " ++ detail
  | io detail => "IO error: " ++ detail
  | serialization detail => "serialization error: " ++ detail
  | yaml detail => "YAML error: " ++ detail
  | httpClient detail => "HTTP client error: " ++ detail
  | unexpectedStatus status body =>
    "unexpected status code " ++ toString status ++ ": " ++ body
  | timeout message => "timeout: " ++ message
  | cancelled => "operation cancelled"
  | config message => "configuration error: " ++ message
  | parsing message => "parsing error: " ++ message
  | internal message => "internal error: " ++ message

/-- The contexts from the outside in, then the cause. -/
def Error.message (e : Error) : String :=
  String.join (e.contexts.map (· ++ ": ")) ++ e.cause.message

-- ---------------------------------------------------------------------------
-- Building errors
-- ---------------------------------------------------------------------------

/-- An error outside of any operation. -/
def Cause.toError (cause : Cause) : Error :=
  ⟨[], cause⟩

/-- The error as seen from a surrounding operation. -/
def Error.within (context : String) (e : Error) : Error :=
  { e with contexts := context :: e.contexts }

/-- Fail for a cause. -/
def fail {α : Type} (cause : Cause) : Outcome α :=
  .error cause.toError

/-- The outcome of a part of the operation described by `context`. -/
def within {α : Type} (context : String) (outcome : Outcome α) : Outcome α :=
  outcome.mapError (Error.within context)

-- ---------------------------------------------------------------------------
-- Classes of causes
-- ---------------------------------------------------------------------------

/-- The client sent something malformed or untrusted. -/
def Cause.isClientFault : Cause → Bool
  | validation _ | valueMissing _ | invalidSignature _ | signatureDecode _ | parsing _ => true
  | _ => false

def Cause.isNotFound : Cause → Bool
  | notFound _ _ => true
  | _ => false

def Cause.isUnknownType : Cause → Bool
  | unknownType _ => true
  | _ => false

/-- The status with which an error is answered. -/
def Error.status (e : Error) : Nat :=
  if e.cause.isClientFault then 400
  else if e.cause.isUnknownType then 501
  else if e.cause.isNotFound then 404
  else 500

end Telemetry
