-- SUMMARY: Decimal numbers: the binary64 number nearest to a decimal, and the shortest decimal that reads back.
import Telemetry.Number.Binary64

/-!
# Decimals and binary64 numbers

A decimal is a natural number scaled by a power of ten. Reading rounds a decimal to the nearest
binary64 magnitude. Writing goes the other way: among the decimals with the fewest digits that read
back as a magnitude, it takes the one nearest to it.
-/

namespace Telemetry

-- Powers of natural numbers are the plain ones, whatever algebra is in scope.
attribute [local instance (2000)] instPowNat instNatPowNat

/-- The number `digits * 10 ^ exponent`. -/
structure Decimal where
  digits : Nat
  exponent : Int
  deriving DecidableEq, Repr

/-- How many decimal digits a natural number is written with. -/
def decimalLength (n : Nat) : Nat :=
  (Nat.toDigits 10 n).length

namespace Decimal

/-- A decimal as a fraction, numerator first. -/
def fraction (d : Decimal) : Nat × Nat :=
  if 0 ≤ d.exponent then (d.digits * 10 ^ d.exponent.toNat, 1)
  else (d.digits, 10 ^ (-d.exponent).toNat)

/-- The place of the binary64 magnitude nearest to a decimal. Powers of ten beyond the range of
    binary64 are decided by the number of digits alone, so that no huge power is computed. -/
def nearestPlace (d : Decimal) : Nat :=
  let top : Int := (decimalLength d.digits : Int) + d.exponent
  if d.digits = 0 then 0
  else if 310 < top then Binary64.infinityPlace
  else if top < -325 then 0
  else Binary64.nearestPlace d.fraction.1 d.fraction.2

/-- The binary64 number nearest to a signed decimal. -/
def toBinary64 (negative : Bool) (d : Decimal) : Binary64 :=
  .atPlace negative d.nearestPlace

/-- Zeros at the end of the digits, at most `fuel` of them, move into the exponent. -/
def stripZeros : (fuel : Nat) → Decimal → Decimal
  | 0, d => d
  | fuel + 1, d =>
    if d.digits % 10 = 0 then stripZeros fuel ⟨d.digits / 10, d.exponent + 1⟩ else d

/-- The decimal without zeros at its end. -/
def normalize (d : Decimal) : Decimal :=
  if d.digits = 0 then ⟨0, 0⟩ else stripZeros (decimalLength d.digits) d

end Decimal

-- ---------------------------------------------------------------------------
-- Shortest decimals
-- ---------------------------------------------------------------------------

namespace Binary64

/-- The number of digits before the point of a positive fraction; zero or less when it is below
    one tenth. -/
def leadingPosition (num den : Nat) : Int :=
  let estimate : Int := (decimalLength num : Int) - (decimalLength den : Int)
  let below : Bool :=
    if 0 ≤ estimate then num < den * 10 ^ estimate.toNat
    else num * 10 ^ (-estimate).toNat < den
  if below then estimate else estimate + 1

/-- The magnitude at a place scaled by `10 ^ -k`, as a fraction. -/
def scaledFraction (place : Nat) (k : Int) : Nat × Nat :=
  let (num, den) := fraction place
  if 0 ≤ k then (num, den * 10 ^ k.toNat) else (num * 10 ^ (-k).toNat, den)

/-- The multiple of `10 ^ k` next to the magnitude at a place that reads back as it, the nearer of
    two. -/
def neighbourOnGrid? (place : Nat) (k : Int) : Option Decimal :=
  let (num, den) := scaledFraction place k
  let low : Decimal := ⟨num / den, k⟩
  let high : Decimal := ⟨num / den + 1, k⟩
  match low.nearestPlace == place, high.nearestPlace == place with
  | true, true => some (if 2 * (num % den) ≤ den then low else high)
  | true, false => some low
  | false, true => some high
  | false, false => none

/-- The magnitude at a place written out in full: every binary fraction is a decimal. -/
def exactDecimal (place : Nat) : Decimal :=
  let e := exponent place
  if 0 ≤ e then ⟨mantissa place * 2 ^ e.toNat, 0⟩
  else ⟨mantissa place * 5 ^ (-e).toNat, e⟩

/-- The decimal with the fewest digits that reads back as the magnitude at a finite place, the
    nearest one of those. Seventeen digits are enough; the full expansion stands behind them. -/
def shortestDecimal (place : Nat) : Decimal :=
  if place = 0 then ⟨0, 0⟩
  else
    let top := leadingPosition (fraction place).1 (fraction place).2
    let found := (List.range 17).findSome? fun (n : Nat) =>
      neighbourOnGrid? place (top - (n + 1 : Nat))
    (found.getD (exactDecimal place)).normalize

end Binary64

end Telemetry
