-- SUMMARY: Keyed digests: HMAC over SHA-256, also as a reusable instance that absorbs a message in parts.
import Telemetry.Digest.Sha256

/-!
# Keyed digests

The digest of a message under a key: the key, brought to the size of a block, is mixed with two
different pads around two nested digests. A `Mac` takes the message in parts; finishing it gives the
digest of what it absorbed and the instance as it was at the start.
-/

namespace Telemetry

namespace Hmac

/-- A key as one block: a longer one is replaced by its digest, a shorter one is filled with zeros. -/
def blockKey (key : List UInt8) : List UInt8 :=
  let short := if 64 < key.length then sha256 key else key
  short ++ List.replicate (64 - short.length) 0

/-- The digest of a message under a key. -/
def digest (key message : List UInt8) : List UInt8 :=
  let block := blockKey key
  sha256 (block.map (· ^^^ 0x5c) ++ sha256 (block.map (· ^^^ 0x36) ++ message))

end Hmac

/-- A keyed digest in progress. -/
structure Mac where
  key : List UInt8
  absorbed : List UInt8
  deriving DecidableEq

namespace Mac

/-- The instance of a key that has absorbed nothing. -/
def start (key : List UInt8) : Mac :=
  ⟨key, []⟩

/-- Take in more of the message. -/
def absorb (mac : Mac) (part : List UInt8) : Mac :=
  { mac with absorbed := mac.absorbed ++ part }

/-- The digest of what has been absorbed, and the instance ready for the next message. -/
def finish (mac : Mac) : List UInt8 × Mac :=
  (Hmac.digest mac.key mac.absorbed, start mac.key)

end Mac

end Telemetry
