-- SUMMARY: Requests and responses of the collector.

/-!
# Messages

A request names a method and a target and carries headers and a body. A response has a status and a
body, whose type is absent if the body is empty.
-/

namespace Telemetry.Http

/-- What a client sends. -/
structure Request where
  method : String
  /-- Path, query and fragment. -/
  target : String
  headers : List (String × String)
  body : List UInt8
  deriving DecidableEq, Repr

/-- The value of a header, whose name may be written in any case. -/
def Request.header? (r : Request) (name : String) : Option String :=
  (r.headers.find? fun (n, _) => n.toLower == name).map (·.2)

/-- What is answered. -/
structure Response where
  status : Nat
  contentType : Option String
  body : String
  deriving DecidableEq, Repr

namespace Response

/-- A text for people. -/
def text (status : Nat) (body : String) : Response :=
  ⟨status, some "text/plain; charset=utf-8", body⟩

def html (body : String) : Response :=
  ⟨200, some "text/html; charset=utf-8", body⟩

def json (body : String) : Response :=
  ⟨200, some "application/json", body⟩

/-- A status without a body. -/
def empty (status : Nat) : Response :=
  ⟨status, none, ""⟩

end Response

end Telemetry.Http
