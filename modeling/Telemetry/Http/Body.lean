-- SUMMARY: Reading the JSON body of a request.
import Telemetry.Gzip.Basic
import Telemetry.Http.MediaType
import Telemetry.Http.Message
import Telemetry.Json.Reader
import Telemetry.Text.Blank

/-!
# JSON bodies

A body has to announce itself as JSON, must not be too long, neither as it is sent nor after it has been
decompressed, and has to be the JSON text of what the request is about. The faults are looked for in
this order.
-/

namespace Telemetry.Http

/-- Why a body is not accepted. -/
inductive BodyFault where
  /-- The body does not say that it is JSON. -/
  | contentType
  | tooLong (length : Nat)
  /-- The body cannot be decompressed. -/
  | unreadable
  /-- The body is too long once it is decompressed. -/
  | overflow
  /-- The body is not JSON, or JSON of something else. -/
  | malformed
  deriving DecidableEq, Repr

namespace BodyFault

/-- The greatest number of bytes of a body. -/
def limit : Nat := 4 * 1024 * 1024

def message : BodyFault → String
  | contentType => "Content type error"
  | tooLong length =>
    "JSON payload (" ++ toString length ++ " bytes) is larger than allowed (limit: "
      ++ toString limit ++ " bytes)."
  | unreadable => "Error that occur during reading payload: invalid compressed data"
  | overflow => "JSON payload has exceeded limit (" ++ toString limit ++ " bytes)."
  | malformed => "Json deserialize error: unexpected content"

def status : BodyFault → Nat
  | tooLong _ | overflow => 413
  | contentType | unreadable | malformed => 400

/-- The answer to a request with such a body. -/
def response (f : BodyFault) : Response :=
  .text f.status f.message

end BodyFault

namespace Request

/-- The body announces itself as JSON. -/
def announcesJson (r : Request) : Bool :=
  ((r.header? "content-type").bind MediaType.read?).elim false (·.isJson)

/-- The body after decompression. An encoding that nobody knows is none. -/
def decodedBody? (r : Request) : Option (List UInt8) :=
  match (r.header? "content-encoding").map fun text => (Text.trim text).toLower with
  | some "gzip" => Gzip.decompress? r.body
  | some "deflate" | some "br" | some "zstd" => none
  | _ => some r.body

/-- What the body of a request stands for. -/
def readJson {α : Type} (decode : Json → Option α) (r : Request) : Except BodyFault α :=
  if !r.announcesJson then .error .contentType
  else if BodyFault.limit < r.body.length then .error (.tooLong r.body.length)
  else
    match r.decodedBody? with
    | none => .error .unreadable
    | some body =>
      if BodyFault.limit < body.length then .error .overflow
      else
        match (Json.readBytes? body).bind decode with
        | some x => .ok x
        | none => .error .malformed

end Request

end Telemetry.Http
