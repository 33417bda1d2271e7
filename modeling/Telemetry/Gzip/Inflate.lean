-- SUMMARY: Reading compressed blocks.
import Telemetry.Gzip.Code

/-!
# Inflating

A compressed text is a sequence of blocks. A block holds its bytes as they are, or symbols of two codes:
literal bytes, and references back into the bytes written so far. The codes are fixed, or stand at the
beginning of the block in a code of their own.
-/

namespace Telemetry.Gzip

/-- Copy bytes from a distance before the end. The source may reach into what is being written. -/
def copyBack (distance : Nat) : (count : Nat) → Array UInt8 → Array UInt8
  | 0, out => out
  | count + 1, out => copyBack distance count (out.push (out[out.size - distance]?.getD 0))

/-- Read a number whose least value and further bits are given by a symbol. -/
def readRange? (table : List (Nat × Nat)) (symbol : Nat) (bits : Bits) : Option (Nat × Bits) := do
  let (least, extra) ← table[symbol]?
  let (offset, bits) ← takeBits? extra bits
  some (least + offset, bits)

/-- Read the symbols of a block up to its end. Each of them takes at least one bit, so `fuel` bits are
    enough for as many symbols. -/
def readSymbols? (literals distances : Code) : (fuel : Nat) → Array UInt8 → Bits →
    Option (Array UInt8 × Bits)
  | 0, _, _ => none
  | fuel + 1, out, bits => do
    let (symbol, bits) ← literals.read? bits
    if symbol < 256 then readSymbols? literals distances fuel (out.push (UInt8.ofNat symbol)) bits
    else if symbol = 256 then some (out, bits)
    else
      let (count, bits) ← readRange? lengthSymbols (symbol - 257) bits
      let (symbol, bits) ← distances.read? bits
      let (distance, bits) ← readRange? distanceSymbols symbol bits
      if out.size < distance then none
      else readSymbols? literals distances fuel (copyBack distance count out) bits

/-- Read a block of bytes as they are, which begins at a whole byte of the text. -/
def readStored? (out : Array UInt8) (bits : Bits) : Option (Array UInt8 × Bits) := do
  let bits := bits.drop (bits.length % 8)
  let (count, bits) ← takeBits? 16 bits
  let (complement, bits) ← takeBits? 16 bits
  guard (count + complement = 65535)
  guard (8 * count ≤ bits.length)
  some (out ++ (bytesOfBits count (bits.take (8 * count))).toArray, bits.drop (8 * count))

/-- The order in which the lengths of the code for lengths stand. -/
def lengthOrder : List Nat :=
  [16, 17, 18, 0, 8, 7, 9, 6, 10, 5, 11, 4, 12, 3, 13, 2, 14, 1, 15]

/-- Read so many numbers of three bits. -/
def readTriples? : (count : Nat) → Bits → Option (List Nat × Bits)
  | 0, bits => some ([], bits)
  | count + 1, bits => do
    let (n, bits) ← takeBits? 3 bits
    let (rest, bits) ← readTriples? count bits
    some (n :: rest, bits)

/-- Read the lengths of two codes until there are `total`. Those so far are given in reverse. -/
def readLengths? (code : Code) (total : Nat) : (fuel : Nat) → (acc : List Nat) → Bits →
    Option (List Nat × Bits)
  | 0, _, _ => none
  | fuel + 1, acc, bits =>
    if total < acc.length then none
    else if acc.length = total then some (acc.reverse, bits)
    else do
      let (symbol, bits) ← code.read? bits
      if symbol < 16 then readLengths? code total fuel (symbol :: acc) bits
      else
        let repeated ← if symbol = 16 then acc.head? else some 0
        let (least, extra) := if symbol = 16 then (3, 2) else if symbol = 17 then (3, 3) else (11, 7)
        let (offset, bits) ← takeBits? extra bits
        readLengths? code total fuel (List.replicate (least + offset) repeated ++ acc) bits

/-- Read the two codes of a block. -/
def readCodes? (bits : Bits) : Option (Code × Code × Bits) := do
  let (literalCount, bits) ← takeBits? 5 bits
  let (distanceCount, bits) ← takeBits? 5 bits
  let (lengthCount, bits) ← takeBits? 4 bits
  let (triples, bits) ← readTriples? (lengthCount + 4) bits
  let lengthLengths := (List.range 19).map fun symbol => ((lengthOrder.zip triples).lookup symbol).getD 0
  let code ← Code.ofLengths? lengthLengths
  let literals := literalCount + 257
  let total := literals + distanceCount + 1
  let (lengths, bits) ← readLengths? code total (total + 1) [] bits
  guard (lengths[256]?.getD 0 ≠ 0)
  some (← Code.ofLengths? (lengths.take literals), ← Code.ofLengths? (lengths.drop literals), bits)

/-- Read blocks up to the last one, and the bits behind it. Each block takes at least three bits. -/
def readBlocks? : (fuel : Nat) → Array UInt8 → Bits → Option (Array UInt8 × Bits)
  | 0, _, _ => none
  | fuel + 1, out, bits => do
    let (last, bits) ← takeBits? 1 bits
    let (form, bits) ← takeBits? 2 bits
    let (out, bits) ←
      match form with
      | 0 => readStored? out bits
      | 1 =>
        readSymbols? (.ofLengths fixedLiteralLengths) (.ofLengths fixedDistanceLengths) bits.length
          out bits
      | 2 => do
        let (literals, distances, bits) ← readCodes? bits
        readSymbols? literals distances bits.length out bits
      | _ => none
    if last = 1 then some (out, bits) else readBlocks? fuel out bits

/-- The bytes that compressed blocks stand for, and the bytes behind the blocks. -/
def inflate? (text : List UInt8) : Option (List UInt8 × List UInt8) := do
  let bits := text.flatMap bitsOfByte
  let (out, bits) ← readBlocks? (bits.length + 1) #[] bits
  let left := bits.length / 8
  some (out.toList, text.drop (text.length - left))

end Telemetry.Gzip
