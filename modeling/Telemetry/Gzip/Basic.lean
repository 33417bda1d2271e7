-- SUMMARY: Compressed files: a head, compressed blocks, and a checksum with the length.
import Telemetry.Gzip.Checksum
import Telemetry.Gzip.Deflate
import Telemetry.Gzip.Inflate

/-!
# Compressed files

A compressed file begins with a head that may name the file, and ends with the checksum and the length
of the content. Reading checks all of them and takes nothing behind the end.
-/

namespace Telemetry.Gzip

-- Powers of natural numbers are the plain ones, whatever algebra is in scope.
attribute [local instance (2000)] instPowNat instNatPowNat

/-- A number in so many bytes, the lowest first. -/
def littleEndian (count n : Nat) : List UInt8 :=
  (List.range count).map fun i => UInt8.ofNat (n / 256 ^ i)

/-- The compressed file of a content. -/
def compress (content : List UInt8) : List UInt8 :=
  [0x1f, 0x8b, 8, 0, 0, 0, 0, 0, 4, 255] ++ deflate content
    ++ littleEndian 4 (checksum content).toNat ++ littleEndian 4 content.length

/-- Drop a text that ends with a zero byte. -/
def dropText? (bytes : List UInt8) : Option (List UInt8) :=
  match bytes.dropWhile (· ≠ 0) with
  | _ :: rest => some rest
  | [] => none

/-- Drop the parts of the head that its flags announce. -/
def dropOptional? (flags : UInt8) (bytes : List UInt8) : Option (List UInt8) := do
  let bytes ←
    if flags &&& 4 = 0 then some bytes
    else
      match bytes with
      | low :: high :: rest =>
        let count := low.toNat + 256 * high.toNat
        if count ≤ rest.length then some (rest.drop count) else none
      | _ => none
  let bytes ← if flags &&& 8 = 0 then some bytes else dropText? bytes
  let bytes ← if flags &&& 16 = 0 then some bytes else dropText? bytes
  if flags &&& 2 = 0 then some bytes
  else if 2 ≤ bytes.length then some (bytes.drop 2)
  else none

/-- The bytes behind the head of a compressed file. -/
def dropHead? : List UInt8 → Option (List UInt8)
  | 0x1f :: 0x8b :: 8 :: flags :: _ :: _ :: _ :: _ :: _ :: _ :: rest => dropOptional? flags rest
  | _ => none

/-- The content of a compressed file. -/
def decompress? (file : List UInt8) : Option (List UInt8) := do
  let (content, rest) ← inflate? (← dropHead? file)
  guard (rest = littleEndian 4 (checksum content).toNat ++ littleEndian 4 content.length)
  some content

end Telemetry.Gzip
