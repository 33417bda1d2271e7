-- SUMMARY: Reading UTF-8 bytes as symbols, where a malformed part becomes a symbol of its own.

/-!
# UTF-8

Bytes are read as a list of symbols: a character, or `none` for a malformed part. A malformed part is
the longest beginning of a well-formed sequence, or one byte that begins none.
-/

namespace Telemetry.Utf8

/-- The byte continues a sequence. -/
def isContinuation (byte : UInt8) : Bool :=
  0x80 ≤ byte && byte ≤ 0xbf

/-- The bytes that may follow the first byte of a three-byte sequence. -/
def isSecondOfThree (first second : UInt8) : Bool :=
  if first = 0xe0 then 0xa0 ≤ second && second ≤ 0xbf
  else if first = 0xed then 0x80 ≤ second && second ≤ 0x9f
  else isContinuation second

/-- The bytes that may follow the first byte of a four-byte sequence. -/
def isSecondOfFour (first second : UInt8) : Bool :=
  if first = 0xf0 then 0x90 ≤ second && second ≤ 0xbf
  else if first = 0xf4 then 0x80 ≤ second && second ≤ 0x8f
  else isContinuation second

/-- The six low bits that a continuation byte carries. -/
def payload (byte : UInt8) : Nat :=
  byte.toNat % 64

/-- The first symbol of a text that begins with `first`, and the bytes after it. -/
def next (first : UInt8) (rest : List UInt8) : Option Char × List UInt8 :=
  if first < 0x80 then (some (Char.ofNat first.toNat), rest)
  else if 0xc2 ≤ first && first ≤ 0xdf then
    match rest with
    | b :: rest' =>
      if isContinuation b then
        (some (Char.ofNat (first.toNat % 32 * 64 + payload b)), rest')
      else (none, rest)
    | [] => (none, [])
  else if 0xe0 ≤ first && first ≤ 0xef then
    match rest with
    | b :: rest' =>
      if isSecondOfThree first b then
        match rest' with
        | c :: rest'' =>
          if isContinuation c then
            (some (Char.ofNat (first.toNat % 16 * 4096 + payload b * 64 + payload c)), rest'')
          else (none, rest')
        | [] => (none, [])
      else (none, rest)
    | [] => (none, [])
  else if 0xf0 ≤ first && first ≤ 0xf4 then
    match rest with
    | b :: rest' =>
      if isSecondOfFour first b then
        match rest' with
        | c :: rest'' =>
          if isContinuation c then
            match rest'' with
            | d :: rest''' =>
              if isContinuation d then
                (some (Char.ofNat (first.toNat % 8 * 262144 + payload b * 4096 + payload c * 64
                  + payload d)), rest''')
              else (none, rest'')
            | [] => (none, [])
          else (none, rest')
        | [] => (none, [])
      else (none, rest)
    | [] => (none, [])
  else (none, rest)

theorem next_length_le (first : UInt8) (rest : List UInt8) :
    (next first rest).2.length ≤ rest.length := by
  unfold next
  repeat' split
  all_goals simp +arith

/-- The symbols of a byte list in front of which `acc` stands in reverse. -/
def symbolsOnto (acc : List (Option Char)) : List UInt8 → List (Option Char)
  | [] => acc.reverse
  | first :: rest => symbolsOnto ((next first rest).1 :: acc) (next first rest).2
termination_by bytes => bytes.length
decreasing_by
  have := next_length_le first rest
  simp only [List.length_cons]
  omega

/-- The symbols that bytes stand for. -/
def symbols (bytes : List UInt8) : List (Option Char) :=
  symbolsOnto [] bytes

/-- The text that bytes stand for, the replacement character in place of each malformed part. -/
def decodeLossy (bytes : List UInt8) : String :=
  String.ofList ((symbols bytes).map (·.getD '\ufffd'))

/-- The text that bytes stand for, if they are well formed. -/
def decode? (bytes : List UInt8) : Option String :=
  ((symbols bytes).mapM id).map String.ofList

/-- The bytes of a text. -/
def encode (text : String) : List UInt8 :=
  text.toUTF8.toList

end Telemetry.Utf8
