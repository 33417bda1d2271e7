-- SUMMARY: JSON values as they are read, and the accessors that records are decoded with.
import Telemetry.Number.Decimal

/-!
# JSON values

A value keeps what a reader of records has to decide later: a number keeps its sign, its decimal and
whether it was written as an integer, and a string whose escapes or bytes denote no text is kept as
such, for it does no harm in a field that nobody reads.
-/

namespace Telemetry

/-- A number as it was written. -/
structure Json.Numeral where
  negative : Bool
  magnitude : Decimal
  /-- The number was written without a point and without a power of ten. -/
  isInteger : Bool
  deriving DecidableEq, Repr

/-- A JSON value. The text of a string is absent if the string denotes none. -/
inductive Json where
  | null
  | bool (value : Bool)
  | number (numeral : Json.Numeral)
  | string (text? : Option String)
  | array (items : List Json)
  | object (fields : List (Option String × Json))

namespace Json

/-- A number as an integer. A negative zero is no integer. -/
def Numeral.integer? (n : Numeral) : Option Int :=
  if !n.isInteger || (n.negative && n.magnitude.digits = 0) then none
  else some (if n.negative then -(n.magnitude.digits : Int) else n.magnitude.digits)

/-- A number as a 64-bit integer. -/
def Numeral.int64? (n : Numeral) : Option Int64 :=
  n.integer?.bind fun i =>
    if Int64.minValue.toInt ≤ i && i ≤ Int64.maxValue.toInt then some (Int64.ofInt i) else none

/-- A number as a finite binary64 number. -/
def Numeral.real? (n : Numeral) : Option Binary64 :=
  let x := n.magnitude.toBinary64 n.negative
  if x.isFinite then some x else none

/-- The text of a string. -/
def text? : Json → Option String
  | string text? => text?
  | _ => none

/-- An optional part of a record: `null` is an absent part. -/
def optional? {α : Type} (decode : Json → Option α) : Json → Option (Option α)
  | null => some none
  | value => (decode value).map some

/-- A 64-bit integer. -/
def int64? : Json → Option Int64
  | number n => n.int64?
  | _ => none

/-- A finite binary64 number. -/
def real? : Json → Option Binary64
  | number n => n.real?
  | _ => none

/-- The value of a field that may stand at most once: `none` if it is repeated. -/
def field? (name : String) (fields : List (Option String × Json)) : Option (Option Json) :=
  match fields.filter (fun f => f.1 == some name) with
  | [] => some none
  | [f] => some (some f.2)
  | _ => none

end Json

end Telemetry
