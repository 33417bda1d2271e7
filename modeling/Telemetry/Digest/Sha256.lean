-- SUMMARY: The SHA-256 digest of a list of bytes.

/-!
# SHA-256

The message is padded to whole blocks of 64 bytes; each block is mixed into eight words of state, which
are the digest in the end.
-/

namespace Telemetry

-- Powers of natural numbers are the plain ones, whatever algebra is in scope.
attribute [local instance (2000)] instPowNat instNatPowNat

namespace Sha256

/-- The constants of the 64 rounds. -/
def roundConstants : Array UInt32 :=
  #[0x428a2f98, 0x71374491, 0xb5c0fbcf, 0xe9b5dba5, 0x3956c25b, 0x59f111f1,
    0x923f82a4, 0xab1c5ed5, 0xd807aa98, 0x12835b01, 0x243185be, 0x550c7dc3,
    0x72be5d74, 0x80deb1fe, 0x9bdc06a7, 0xc19bf174, 0xe49b69c1, 0xefbe4786,
    0x0fc19dc6, 0x240ca1cc, 0x2de92c6f, 0x4a7484aa, 0x5cb0a9dc, 0x76f988da,
    0x983e5152, 0xa831c66d, 0xb00327c8, 0xbf597fc7, 0xc6e00bf3, 0xd5a79147,
    0x06ca6351, 0x14292967, 0x27b70a85, 0x2e1b2138, 0x4d2c6dfc, 0x53380d13,
    0x650a7354, 0x766a0abb, 0x81c2c92e, 0x92722c85, 0xa2bfe8a1, 0xa81a664b,
    0xc24b8b70, 0xc76c51a3, 0xd192e819, 0xd6990624, 0xf40e3585, 0x106aa070,
    0x19a4c116, 0x1e376c08, 0x2748774c, 0x34b0bcb5, 0x391c0cb3, 0x4ed8aa4a,
    0x5b9cca4f, 0x682e6ff3, 0x748f82ee, 0x78a5636f, 0x84c87814, 0x8cc70208,
    0x90befffa, 0xa4506ceb, 0xbef9a3f7, 0xc67178f2]

/-- The state before the first block. -/
def initialState : Array UInt32 :=
  #[0x6a09e667, 0xbb67ae85, 0x3c6ef372, 0xa54ff53a, 0x510e527f, 0x9b05688c,
    0x1f83d9ab, 0x5be0cd19]

def rotateRight (x : UInt32) (count : UInt32) : UInt32 :=
  (x >>> count) ||| (x <<< (32 - count))

-- ---------------------------------------------------------------------------
-- Padding and words
-- ---------------------------------------------------------------------------

/-- A number in `count` bytes, the highest first. -/
def bigEndian (count n : Nat) : List UInt8 :=
  (List.range count).map fun i => UInt8.ofNat (n / 256 ^ (count - 1 - i) % 256)

/-- The message, a one bit, zeros, and the length of the message in bits. -/
def pad (message : List UInt8) : List UInt8 :=
  let fill := (119 - message.length % 64) % 64
  message ++ 0x80 :: List.replicate fill 0 ++ bigEndian 8 (message.length * 8)

/-- Four bytes as a word, the highest first. -/
def word (a b c d : UInt8) : UInt32 :=
  (a.toUInt32 <<< 24) ||| (b.toUInt32 <<< 16) ||| (c.toUInt32 <<< 8) ||| d.toUInt32

/-- The words of a list of bytes. -/
def words : List UInt8 → List UInt32
  | a :: b :: c :: d :: rest => word a b c d :: words rest
  | _ => []

-- ---------------------------------------------------------------------------
-- Mixing
-- ---------------------------------------------------------------------------

/-- The next word of a message schedule. -/
def nextWord (w : Array UInt32) : UInt32 :=
  let i := w.size
  let a := w.getD (i - 15) 0
  let b := w.getD (i - 2) 0
  let s0 := rotateRight a 7 ^^^ rotateRight a 18 ^^^ (a >>> 3)
  let s1 := rotateRight b 17 ^^^ rotateRight b 19 ^^^ (b >>> 10)
  w.getD (i - 16) 0 + s0 + w.getD (i - 7) 0 + s1

/-- The 64 words that a block is mixed in with. -/
def schedule (block : List UInt32) : Array UInt32 :=
  (List.range 48).foldl (fun w _ => w.push (nextWord w)) block.toArray

/-- One round. -/
def mixRound (s : Array UInt32) (k w : UInt32) : Array UInt32 :=
  let a := s.getD 0 0
  let b := s.getD 1 0
  let c := s.getD 2 0
  let d := s.getD 3 0
  let e := s.getD 4 0
  let f := s.getD 5 0
  let g := s.getD 6 0
  let h := s.getD 7 0
  let s1 := rotateRight e 6 ^^^ rotateRight e 11 ^^^ rotateRight e 25
  let choice := (e &&& f) ^^^ ((~~~e) &&& g)
  let t1 := h + s1 + choice + k + w
  let s0 := rotateRight a 2 ^^^ rotateRight a 13 ^^^ rotateRight a 22
  let majority := (a &&& b) ^^^ (a &&& c) ^^^ (b &&& c)
  #[t1 + s0 + majority, a, b, c, d + t1, e, f, g]

/-- Mix one block of sixteen words into the state. -/
def mixBlock (state : Array UInt32) (block : List UInt32) : Array UInt32 :=
  let w := schedule block
  let mixed := (List.range 64).foldl
    (fun s i => mixRound s (roundConstants.getD i 0) (w.getD i 0)) state
  Array.zipWith (· + ·) state mixed

/-- Mix in so many blocks. -/
def mixBlocks : (count : Nat) → Array UInt32 → List UInt32 → Array UInt32
  | 0, state, _ => state
  | count + 1, state, ws => mixBlocks count (mixBlock state (ws.take 16)) (ws.drop 16)

end Sha256

open Sha256 in
/-- The 32 bytes of the SHA-256 digest. -/
def sha256 (message : List UInt8) : List UInt8 :=
  let ws := words (pad message)
  (mixBlocks (ws.length / 16) initialState ws).toList.flatMap fun w => bigEndian 4 w.toNat

end Telemetry
