-- SUMMARY: The cyclic redundancy check of compressed files.

/-!
# The checksum of a compressed file

The 32-bit cyclic redundancy check with the reversed polynomial, over all bytes of the content.
-/

namespace Telemetry.Gzip

/-- Divide by the polynomial, one bit. -/
def divideBit (remainder : UInt32) : UInt32 :=
  if remainder &&& 1 = 1 then (remainder >>> 1) ^^^ 0xedb88320 else remainder >>> 1

/-- The remainders of all bytes. -/
def remainders : Array UInt32 :=
  (Array.range 256).map fun n =>
    (List.range 8).foldl (fun remainder _ => divideBit remainder) (UInt32.ofNat n)

/-- Take in one byte. -/
def addByte (remainder : UInt32) (byte : UInt8) : UInt32 :=
  remainders[((remainder ^^^ byte.toUInt32) &&& 0xff).toNat]?.getD 0 ^^^ (remainder >>> 8)

/-- The checksum of a list of bytes. -/
def checksum (content : List UInt8) : UInt32 :=
  content.foldl addByte 0xffffffff ^^^ 0xffffffff

end Telemetry.Gzip
