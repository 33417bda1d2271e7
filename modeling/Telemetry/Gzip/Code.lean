-- SUMMARY: Bits and the canonical codes of compressed blocks.

/-!
# Canonical codes

A canonical code is given by the lengths of its words: words of one length are consecutive numbers in
the order of their symbols, and shorter words come first. Reading a word goes through the lengths and
asks whether the bits so far are one of the words of that length.
-/

namespace Telemetry.Gzip

-- Powers of natural numbers are the plain ones, whatever algebra is in scope.
attribute [local instance (2000)] instPowNat instNatPowNat

/-- Bits in the order in which they are read. -/
abbrev Bits := List Bool

/-- The bits of a byte, the lowest first. -/
def bitsOfByte (byte : UInt8) : Bits :=
  (List.range 8).map fun i => byte.toNat.testBit i

/-- A number of so many bits, the lowest first. -/
def lowBits (count n : Nat) : Bits :=
  (List.range count).map n.testBit

/-- The number that bits stand for, the lowest first. -/
def bitsValue (bits : Bits) : Nat :=
  bits.foldr (fun bit acc => 2 * acc + bit.toNat) 0

/-- Take a number of so many bits, the lowest first. -/
def takeBits? (count : Nat) (bits : Bits) : Option (Nat × Bits) :=
  let taken := bits.take count
  if taken.length = count then some (bitsValue taken, bits.drop count) else none

/-- The bytes that bits stand for, the last one filled with zeros. -/
def bytesOfBits : (fuel : Nat) → Bits → List UInt8
  | 0, _ | _, [] => []
  | fuel + 1, bits => UInt8.ofNat (bitsValue (bits.take 8)) :: bytesOfBits fuel (bits.drop 8)

/-- A code: how many words there are of each length, from length one on, and the symbols in the order
    of their words. -/
structure Code where
  counts : List Nat
  symbols : Array Nat

namespace Code

/-- The longest length of a word. -/
def maxLength : Nat := 15

/-- The part of all words that is still free after the words of the given lengths, in units of the
    longest words; it is negative if there are too many words. -/
def freeWords (lengths : List Nat) : Int :=
  let taken := (lengths.filter (· ≠ 0)).foldl (fun n length => n + 2 ^ (maxLength - length)) 0
  (2 ^ maxLength : Nat) - (taken : Int)

/-- The code of a list of lengths, one for each symbol; zero is no word. -/
def ofLengths (lengths : List Nat) : Code :=
  let indexed := lengths.zipIdx
  let sizes := (List.range maxLength).map (· + 1)
  { counts := sizes.map fun size => lengths.count size
    symbols := (sizes.flatMap fun size =>
      (indexed.filter fun entry => entry.1 = size).map (·.2)).toArray }

/-- A code that leaves no word over, or has a single word at most. -/
def ofLengths? (lengths : List Nat) : Option Code :=
  let used := (lengths.filter (· ≠ 0)).length
  if freeWords lengths = 0 || (used ≤ 1 && 0 ≤ freeWords lengths) then some (ofLengths lengths)
  else none

/-- Read a word. So far `word` has been read, the words of this length begin behind `first`, and
    `index` symbols have shorter words. -/
def readFrom? (symbols : Array Nat) : (counts : List Nat) → (word first index : Nat) → Bits →
    Option (Nat × Bits)
  | [], _, _, _, _ | _, _, _, _, [] => none
  | count :: counts, word, first, index, bit :: bits =>
    let word := 2 * word + bit.toNat
    let first := 2 * first
    if word < first + count then
      (symbols[index + (word - first)]?).map fun symbol => (symbol, bits)
    else readFrom? symbols counts word (first + count) (index + count) bits

/-- Read one symbol. -/
def read? (code : Code) (bits : Bits) : Option (Nat × Bits) :=
  readFrom? code.symbols code.counts 0 0 0 bits

end Code

-- ---------------------------------------------------------------------------
-- The fixed codes, and lengths and distances
-- ---------------------------------------------------------------------------

/-- The lengths of the words for literals and lengths in a block with fixed codes. -/
def fixedLiteralLengths : List Nat :=
  List.replicate 144 8 ++ List.replicate 112 9 ++ List.replicate 24 7 ++ List.replicate 8 8

/-- The lengths of the words for distances in a block with fixed codes. -/
def fixedDistanceLengths : List Nat :=
  List.replicate 30 5

/-- The least length and the number of further bits of each length symbol, from 257 on. -/
def lengthSymbols : List (Nat × Nat) :=
  [(3, 0), (4, 0), (5, 0), (6, 0), (7, 0), (8, 0), (9, 0), (10, 0), (11, 1), (13, 1), (15, 1),
    (17, 1), (19, 2), (23, 2), (27, 2), (31, 2), (35, 3), (43, 3), (51, 3), (59, 3), (67, 4),
    (83, 4), (99, 4), (115, 4), (131, 5), (163, 5), (195, 5), (227, 5), (258, 0)]

/-- The least distance and the number of further bits of each distance symbol. -/
def distanceSymbols : List (Nat × Nat) :=
  [(1, 0), (2, 0), (3, 0), (4, 0), (5, 1), (7, 1), (9, 2), (13, 2), (17, 3), (25, 3), (33, 4),
    (49, 4), (65, 5), (97, 5), (129, 6), (193, 6), (257, 7), (385, 7), (513, 8), (769, 8),
    (1025, 9), (1537, 9), (2049, 10), (3073, 10), (4097, 11), (6145, 11), (8193, 12), (12289, 12),
    (16385, 13), (24577, 13)]

end Telemetry.Gzip
