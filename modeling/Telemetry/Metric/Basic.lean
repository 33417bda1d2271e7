-- SUMMARY: Named metrics and the canonical text that signatures are made of.
import Telemetry.Metric.Value

/-!
# Metrics

A metric is a name with a value. Its canonical text, which signatures cover, joins name, kind and
value by colons, gauges with six places.
-/

namespace Telemetry

/-- A named value. -/
structure Metric where
  name : String
  value : Value
  deriving DecidableEq, Inhabited

namespace Metric

def kind (m : Metric) : Kind :=
  m.value.kind

/-- The metric with its value changed. -/
def update (f : Value → Value) (m : Metric) : Metric :=
  { m with value := f m.value }

@[simp] theorem name_update (f : Value → Value) (m : Metric) : (m.update f).name = m.name := rfl
@[simp] theorem value_update (f : Value → Value) (m : Metric) :
    (m.update f).value = f m.value := rfl

/-- The text that a signature of the metric covers. -/
def canonicalText (m : Metric) : String :=
  match m.value with
  | .counter count => m.name ++ ":counter:" ++ toString count.toInt
  | .gauge level => m.name ++ ":gauge:" ++ level.fixed 6

/-- The same name and numerically the same value. -/
def numericEq (a b : Metric) : Bool :=
  a.name == b.name && a.value.numericEq b.value

/-- A metric in diagnostic output. -/
def debug (m : Metric) : String :=
  "Metric \x7b name: " ++ Text.quote m.name ++ ", value: " ++ m.value.debug ++ " \x7d"

end Metric

end Telemetry
