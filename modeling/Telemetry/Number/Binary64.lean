-- SUMMARY: Binary64 numbers as exact values: sign and place of the magnitude, rounding from fractions, conversion to and from 64-bit integers.

/-!
# Binary64 numbers

A binary64 number is not-a-number, or a sign together with a magnitude. The magnitudes in ascending
order, zero first and infinity last, are numbered by their *place* in that row. Two magnitudes are
equal exactly when their places are, the order of the places is the order of the magnitudes, and
rounding up to the next binade is the step to the next place. All arithmetic is exact arithmetic on
natural numbers followed by one rounding.
-/

namespace Telemetry

-- Powers of natural numbers are the plain ones, whatever algebra is in scope.
attribute [local instance (2000)] instPowNat instNatPowNat

/-- The number of magnitudes from one power of two up to the next, which is `2 ^ 52`. -/
def Binary64.binade : Nat := 0x10_0000_0000_0000

/-- The place of infinity: 2047 binades of finite magnitudes stand before it. -/
def Binary64.infinityPlace : Nat := 2047 * binade

/-- A binary64 number. Every not-a-number is the same one, and zero keeps its sign. -/
inductive Binary64 where
  | nan
  | signed (negative : Bool) (place : Fin (Binary64.infinityPlace + 1))
  deriving DecidableEq

/-- The quotient rounded to the nearest natural number, a half going to the even neighbour. -/
def roundHalfEven (num den : Nat) : Nat :=
  let quotient := num / den
  let rest := num % den
  if 2 * rest < den then quotient
  else if den < 2 * rest then quotient + 1
  else quotient + quotient % 2

/-- The largest `k` with `2 ^ k ≤ num / den`, for a positive fraction. -/
def floorLog2 (num den : Nat) : Int :=
  let estimate : Int := (Nat.log2 num : Int) - (Nat.log2 den : Int)
  let reached : Bool :=
    if 0 ≤ estimate then den * 2 ^ estimate.toNat ≤ num
    else den ≤ num * 2 ^ (-estimate).toNat
  if reached then estimate else estimate - 1

namespace Binary64

-- ---------------------------------------------------------------------------
-- Places
-- ---------------------------------------------------------------------------

/-- The number with the given sign at a place; places past the last one are infinity. -/
def atPlace (negative : Bool) (place : Nat) : Binary64 :=
  .signed negative ⟨min place infinityPlace, Nat.lt_succ_of_le (Nat.min_le_right _ _)⟩

/-- The integer that is scaled by `2 ^ exponent place` to give the magnitude at a place. -/
def mantissa (place : Nat) : Nat :=
  if place < binade then place else binade + place % binade

/-- The power of two that scales `mantissa place`. -/
def exponent (place : Nat) : Int :=
  if place < binade then -1074 else ((place / binade : Nat) : Int) - 1075

/-- The magnitude at a finite place as a fraction, numerator first. -/
def fraction (place : Nat) : Nat × Nat :=
  let e := exponent place
  if 0 ≤ e then (mantissa place * 2 ^ e.toNat, 1) else (mantissa place, 2 ^ (-e).toNat)

/-- The whole part of the magnitude at a place. -/
def wholePart (place : Nat) : Nat :=
  (fraction place).1 / (fraction place).2

-- ---------------------------------------------------------------------------
-- Rounding
-- ---------------------------------------------------------------------------

/-- The place nearest to a fraction, a tie going to the even mantissa. It may lie past infinity. -/
def nearestPlace (num den : Nat) : Nat :=
  if num = 0 then 0
  else
    let e := max (floorLog2 num den - 52) (-1074)
    let m :=
      if 0 ≤ e then roundHalfEven num (den * 2 ^ e.toNat)
      else roundHalfEven (num * 2 ^ (-e).toNat) den
    (e + 1074).toNat * binade + m

/-- The number nearest to a signed fraction. -/
def ofRatio (negative : Bool) (num den : Nat) : Binary64 :=
  atPlace negative (nearestPlace num den)

/-- The number nearest to an integer. -/
def ofInt (i : Int) : Binary64 :=
  ofRatio (i < 0) i.natAbs 1

/-- The number nearest to a natural number. -/
def ofNat (n : Nat) : Binary64 :=
  ofRatio false n 1

/-- The number nearest to a 64-bit integer. -/
def ofInt64 (i : Int64) : Binary64 :=
  ofInt i.toInt

/-- Positive zero. -/
def zero : Binary64 :=
  atPlace false 0

instance : Inhabited Binary64 := ⟨zero⟩

/-- The 64-bit integer next to the number on the side of zero. Numbers out of range go to the nearer
    bound, and not-a-number goes to zero. -/
def toInt64 : Binary64 → Int64
  | nan => 0
  | signed negative place =>
    let whole : Int := wholePart place
    Int64.ofIntClamp (if negative then -whole else whole)

-- ---------------------------------------------------------------------------
-- Comparison
-- ---------------------------------------------------------------------------

/-- Not-a-number is the one number that differs from itself. -/
def isNan : Binary64 → Bool
  | nan => true
  | signed _ _ => false

/-- Neither not-a-number nor infinite. -/
def isFinite : Binary64 → Bool
  | nan => false
  | signed _ place => place.val < infinityPlace

/-- Numeric equality: the two zeros are equal, and not-a-number equals nothing. -/
def numericEq : Binary64 → Binary64 → Bool
  | signed n p, signed m q => p == q && (n == m || p.val == 0)
  | _, _ => false

/-- The same number with a zero made positive. -/
def withPositiveZero : Binary64 → Binary64
  | signed negative place => if place.val = 0 then zero else signed negative place
  | nan => nan

-- ---------------------------------------------------------------------------
-- Sums of magnitudes
-- ---------------------------------------------------------------------------

/-- The rounded sum of two finite magnitudes. -/
def addMagnitudes (p q : Nat) : Binary64 :=
  let (a, b) := fraction p
  let (c, d) := fraction q
  ofRatio false (a * d + c * b) (b * d)

end Binary64

end Telemetry
