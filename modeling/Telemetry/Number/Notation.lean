-- SUMMARY: Written forms of numbers: plain, record and debug notation, and a fixed number of places.
import Telemetry.Number.Decimal

/-!
# Written forms of numbers

A *notation* says when a number is written positionally and when with a power of ten. The plain
notation is the one for values; the record notation is used inside records, where a number never
looks like an integer; the debug notation is used in diagnostic output.
-/

namespace Telemetry

-- Powers of natural numbers are the plain ones, whatever algebra is in scope.
attribute [local instance (2000)] instPowNat instNatPowNat

/-- The decisions of a written form. `lowest` and `highest` bound the powers of ten of the leading
    digit that are written positionally. -/
structure NumberNotation where
  lowest : Option Int
  highest : Option Int
  /-- What follows a number without a fraction. -/
  wholeMark : String
  /-- The sign of a positive power of ten. -/
  positiveSign : String
  deriving Repr

namespace NumberNotation

/-- Values are always written positionally, and whole numbers have no point. -/
def plain : NumberNotation := ⟨none, none, "", ""⟩

/-- Numbers from `1e-5` up to below `1e16` are written positionally, always with a point. -/
def record : NumberNotation := ⟨some (-5), some 15, ".0", "+"⟩

/-- Numbers from `1e-4` up to below `1e16` are written positionally, always with a point. -/
def debug : NumberNotation := ⟨some (-4), some 15, ".0", ""⟩

end NumberNotation

/-- So many zeros. -/
def zeros (count : Nat) : String :=
  String.ofList (List.replicate count '0')

namespace Decimal

/-- The digits before and after the point. -/
def split (d : Decimal) : String × String :=
  let text := toString d.digits
  if 0 ≤ d.exponent then (if d.digits = 0 then "0" else text ++ zeros d.exponent.toNat, "")
  else
    let point : Int := (text.length : Int) + d.exponent
    if 0 < point then
      ((text.take point.toNat).toString, (text.drop point.toNat).toString)
    else ("0", zeros (-point).toNat ++ text)

/-- The power of ten of the leading digit. -/
def leadingPower (d : Decimal) : Int :=
  (decimalLength d.digits : Int) + d.exponent - 1

/-- A decimal written with a power of ten, one digit before the point. -/
def scientific (positiveSign : String) (d : Decimal) : String :=
  let text := toString d.digits
  let rest := (text.drop 1).toString
  let point := if rest.isEmpty then "" else "." ++ rest
  let power := d.leadingPower
  let sign := if 0 ≤ power then positiveSign else "-"
  (text.take 1).toString ++ point ++ "e" ++ sign ++ toString power.natAbs

/-- A decimal in a notation. -/
def write (style : NumberNotation) (d : Decimal) : String :=
  let power := d.leadingPower
  let low := style.lowest.all (· ≤ power)
  let high := style.highest.all (power ≤ ·)
  if d.digits = 0 || (low && high) then
    let (whole, rest) := d.split
    whole ++ (if rest.isEmpty then style.wholeMark else "." ++ rest)
  else d.scientific style.positiveSign

end Decimal

namespace Binary64

/-- The minus sign of negative numbers, negative zero included. -/
def signText (negative : Bool) : String :=
  if negative then "-" else ""

/-- A number in a notation: the fewest digits that read back. -/
def write (style : NumberNotation) : Binary64 → String
  | nan => "NaN"
  | signed negative place =>
    signText negative ++
      (if place.val = infinityPlace then "inf" else (shortestDecimal place).write style)

/-- The text of a value. -/
def text (x : Binary64) : String :=
  x.write .plain

/-- A number with so many places after the point, a half going to the even neighbour. -/
def fixed (places : Nat) : Binary64 → String
  | nan => "NaN"
  | signed negative place =>
    signText negative ++
      (if place.val = infinityPlace then "inf"
      else
        let (num, den) := fraction place
        let scaled := roundHalfEven (num * 10 ^ places) den
        let whole := toString (scaled / 10 ^ places)
        let rest := toString (scaled % 10 ^ places)
        if places = 0 then whole
        else whole ++ "." ++ zeros (places - rest.length) ++ rest)

instance : ToString Binary64 := ⟨text⟩

end Binary64

end Telemetry
