-- SUMMARY: Signing metrics with a shared key and checking signatures.
import Telemetry.Digest.Hmac
import Telemetry.Metric.Basic

/-!
# Signatures

A signature is the keyed digest of the canonical text of a metric, sent as hexadecimal text. One keyed
instance serves every call and is back at its start after each of them. Without a key nothing can be
signed or checked.
-/

namespace Telemetry

/-- The keyed instance, absent when there is no key. -/
structure Signer where
  mac : Option Mac
  deriving DecidableEq

/-- Equality of byte lists that looks at every byte: the differences of all pairs are gathered before
    the verdict. -/
def constantTimeEq (a b : List UInt8) : Bool :=
  a.length == b.length && (a.zip b).foldl (fun acc (x, y) => acc ||| (x ^^^ y)) 0 == 0

namespace Signer

/-- The signer that has no key. -/
def disabled : Signer := ⟨none⟩

/-- The signer of a key; the empty key is none. -/
def ofKey (key : String) : Signer :=
  if key.isEmpty then disabled else ⟨some (.start key.toUTF8.toList)⟩

def isEnabled (s : Signer) : Bool :=
  s.mac.isSome

/-- The signature of a metric, and the signer after the call. -/
def sign (s : Signer) (m : Metric) : Outcome (List UInt8) × Signer :=
  match s.mac with
  | none => (fail .missingKey, s)
  | some mac =>
    let (signature, mac) := (mac.absorb m.canonicalText.toUTF8.toList).finish
    (.ok signature, ⟨some mac⟩)

/-- The signature as hexadecimal text, and the signer after the call. -/
def signHex (s : Signer) (m : Metric) : Outcome String × Signer :=
  let (signature, s) := s.sign m
  (signature.map Hex.encode, s)

/-- Whether a hexadecimal text is the signature of a metric, and the signer after the call. The text is
    decoded before the key is looked at. -/
def check (s : Signer) (m : Metric) (signature : String) : Outcome Bool × Signer :=
  match Hex.decode signature with
  | .error fault => (fail (.signatureDecode fault), s)
  | .ok supplied =>
    let (expected, s) := s.sign m
    (expected.map (constantTimeEq · supplied), s)

/-- A signer in diagnostic output; the key is not shown. -/
def debug (s : Signer) : String :=
  "Signer \x7b enabled: " ++ toString s.isEnabled ++ " \x7d"

end Signer

end Telemetry
