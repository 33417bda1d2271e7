-- SUMMARY: Punycode: code points written with letters and digits.

/-!
# Punycode

A label of a domain name that holds characters beyond ASCII is written with letters and digits: first the
ASCII characters, then, for each other character in ascending order, its distance to the one before as a
number of variable length. How long the digits of these numbers run adapts to the distances seen so far.
-/

namespace Telemetry.Url.Punycode

/-- The character of a digit, letters before numerals. -/
def digit (d : Nat) : Char :=
  if d < 26 then Char.ofNat ('a'.toNat + d) else Char.ofNat ('0'.toNat + (d - 26))

/-- The value of a digit in either case. -/
def digitValue? (c : Char) : Option Nat :=
  if 'a' ≤ c && c ≤ 'z' then some (c.toNat - 'a'.toNat)
  else if 'A' ≤ c && c ≤ 'Z' then some (c.toNat - 'A'.toNat)
  else if c.isDigit then some (c.toNat - '0'.toNat + 26)
  else none

/-- The smallest value that continues a number at a position. -/
def threshold (position bias : Nat) : Nat :=
  if position ≤ bias then 1 else if bias + 26 ≤ position then 26 else position - bias

theorem threshold_pos (position bias : Nat) : 1 ≤ threshold position bias := by
  unfold threshold
  repeat' split
  all_goals omega

theorem threshold_le (position bias : Nat) : threshold position bias ≤ 26 := by
  unfold threshold
  repeat' split
  all_goals omega

/-- Scale a distance down to the range in which the bias is computed. -/
def scaleDown (delta position : Nat) : Nat × Nat :=
  if 455 < delta then scaleDown (delta / 35) (position + 36) else (delta, position)
termination_by delta
decreasing_by exact Nat.div_lt_self (by omega) (by omega)

/-- The bias after a distance, when so many characters have been written. -/
def adapt (delta written : Nat) (isFirst : Bool) : Nat :=
  let delta := if isFirst then delta / 700 else delta / 2
  let (delta, position) := scaleDown (delta + delta / written) 0
  position + 36 * delta / (delta + 38)

-- ---------------------------------------------------------------------------
-- Writing
-- ---------------------------------------------------------------------------

/-- The digits of a distance from a position on. -/
def encodeDistance (bias q position : Nat) : List Char :=
  let t := threshold position bias
  if q < t then [digit q]
  else digit (t + (q - t) % (36 - t)) :: encodeDistance bias ((q - t) / (36 - t)) (position + 36)
termination_by q
decreasing_by
  have hpos := threshold_pos position bias
  have hle := threshold_le position bias
  have : (q - threshold position bias) / (36 - threshold position bias)
      ≤ q - threshold position bias := Nat.div_le_self _ _
  omega

/-- Where the writer stands: the last code point, the distance gathered, the bias, and the number of
    characters written. -/
structure Progress where
  point : Nat
  delta : Nat
  bias : Nat
  written : Nat

/-- Write all occurrences of a code point in a label; smaller ones have been written before. -/
def encodePoint (basic point : Nat) : List Char → Progress → List Char × Progress
  | [], p => ([], p)
  | c :: rest, p =>
    if c.toNat < point then encodePoint basic point rest { p with delta := p.delta + 1 }
    else if c.toNat = point then
      let digits := encodeDistance p.bias p.delta 36
      let next : Progress :=
        ⟨point, 0, adapt p.delta (p.written + 1) (p.written == basic), p.written + 1⟩
      let (others, p) := encodePoint basic point rest next
      (digits ++ others, p)
    else encodePoint basic point rest p

/-- Write the given code points, which ascend. -/
def encodePoints (label : List Char) (basic : Nat) : List Nat → Progress → List Char
  | [], _ => []
  | point :: rest, p =>
    let start : Progress :=
      { p with delta := p.delta + (point - p.point) * (p.written + 1), point := point }
    let (digits, p) := encodePoint basic point label start
    digits ++ encodePoints label basic rest { p with delta := p.delta + 1, point := point + 1 }

/-- A label written in ASCII. -/
def encode (label : List Char) : List Char :=
  let ascii := label.filter fun c => c.toNat < 128
  let points := ((label.map Char.toNat).filter (128 ≤ ·)).eraseDups.mergeSort
  let head := if ascii.isEmpty then [] else ascii ++ ['-']
  head ++ encodePoints label ascii.length points ⟨128, 0, 72, ascii.length⟩

-- ---------------------------------------------------------------------------
-- Reading
-- ---------------------------------------------------------------------------

/-- Read one distance onto `value`, and give back the rest of the digits. -/
def decodeDistance? (bias : Nat) : (value weight position : Nat) → List Char →
    Option (Nat × List Char)
  | _, _, _, [] => none
  | value, weight, position, c :: rest => do
    let d ← digitValue? c
    let t := threshold position bias
    let value := value + d * weight
    if d < t then some (value, rest)
    else decodeDistance? bias value (weight * (36 - t)) (position + 36) rest

/-- Read so many distances at most and put the characters they stand for into the label. -/
def decodePoints? : (fuel : Nat) → (point index bias : Nat) → (label digits : List Char) →
    Option (List Char)
  | _, _, _, _, label, [] => some label
  | 0, _, _, _, _, _ :: _ => none
  | fuel + 1, point, index, bias, label, digits => do
    let (next, rest) ← decodeDistance? bias index 1 36 digits
    let size := label.length + 1
    let point := point + next / size
    let position := next % size
    if 0x10ffff < point || (0xd800 ≤ point && point ≤ 0xdfff) then none
    else
      let label := label.take position ++ Char.ofNat point :: label.drop position
      decodePoints? fuel point (position + 1) (adapt (next - index) size (index == 0)) label rest

/-- The label that an ASCII text stands for. Everything before the last hyphen is taken as it is. -/
def decode? (text : List Char) : Option (List Char) :=
  let (head, digits) :=
    match text.reverse.span (· ≠ '-') with
    | (last, _ :: head) => (head.reverse, last.reverse)
    | (last, []) => ([], last.reverse)
  if head.any fun c => 128 ≤ c.toNat then none
  else decodePoints? digits.length 128 0 72 head digits

end Telemetry.Url.Punycode
