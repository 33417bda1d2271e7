-- SUMMARY: Writing compressed blocks: runs of one byte become references to the byte before.
import Telemetry.Gzip.Code

/-!
# Deflating

The text is written as one block with the fixed codes. A run of equal bytes is written as the byte
followed by references to the byte before, each for as many bytes as a reference can cover.
-/

namespace Telemetry.Gzip

/-- The word of a literal or length symbol in the fixed code, the highest bit first. -/
def fixedWord (symbol : Nat) : Bits :=
  let (count, word) :=
    if symbol < 144 then (8, 48 + symbol)
    else if symbol < 256 then (9, 400 + (symbol - 144))
    else if symbol < 280 then (7, symbol - 256)
    else (8, 192 + (symbol - 280))
  (lowBits count word).reverse

/-- A reference to the byte before, for a count from 3 to 258. -/
def repeatWord (count : Nat) : Bits :=
  match (lengthSymbols.zipIdx.reverse).find? fun entry => entry.1.1 ≤ count with
  | some ((least, extra), index) =>
    fixedWord (257 + index) ++ lowBits extra (count - least) ++ List.replicate 5 false
  | none => []

/-- Repeat a byte that has just been written. -/
def repeatByte (byte : UInt8) : (fuel : Nat) → (count : Nat) → Bits
  | 0, _ => []
  | fuel + 1, count =>
    if count < 3 then (List.replicate count (fixedWord byte.toNat)).flatten
    else repeatWord (min count 258) ++ repeatByte byte fuel (count - min count 258)

/-- A run of equal bytes. -/
def runWord : List UInt8 → Bits
  | [] => []
  | byte :: rest => fixedWord byte.toNat ++ repeatByte byte (rest.length + 1) rest.length

/-- The compressed form of a list of bytes. -/
def deflate (content : List UInt8) : List UInt8 :=
  let bits := [true, true, false] ++ (content.splitBy (· == ·)).flatMap runWord ++ fixedWord 256
  bytesOfBits bits.length bits

end Telemetry.Gzip
