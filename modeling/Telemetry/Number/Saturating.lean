-- SUMMARY: Saturating addition and subtraction of 64-bit integers.

/-!
# Saturating arithmetic

Sums and differences that leave the range of 64-bit integers stop at the bound they crossed.
-/

namespace Telemetry

/-- The sum, or the bound it crosses. -/
def saturatingAdd (a b : Int64) : Int64 :=
  Int64.ofIntClamp (a.toInt + b.toInt)

/-- The difference, or the bound it crosses. -/
def saturatingSub (a b : Int64) : Int64 :=
  Int64.ofIntClamp (a.toInt - b.toInt)

end Telemetry
