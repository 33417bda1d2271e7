-- SUMMARY: Kinds and values of metrics, and how a value is updated, written and read.
import Telemetry.Error
import Telemetry.Number.Notation
import Telemetry.Number.Reading
import Telemetry.Number.Saturating

/-!
# Metric values

A counter is a 64-bit integer that updates add to, a gauge a binary64 number that updates replace.
The kind of a value never changes under an update.
-/

namespace Telemetry

/-- How a metric treats its updates. -/
inductive Kind where
  /-- Updates add up. -/
  | counter
  /-- The last update counts. -/
  | gauge
  deriving DecidableEq, Repr

def Kind.name : Kind → String
  | counter => "counter"
  | gauge => "gauge"

/-- The kind with a name. -/
def Kind.ofName? (name : String) : Option Kind :=
  if name = "counter" then some .counter
  else if name = "gauge" then some .gauge
  else none

/-- The kind that a type name in a request or record stands for. -/
def Kind.read (name : String) : Outcome Kind :=
  match ofName? name with
  | some kind => .ok kind
  | none => fail (.unknownType name)

@[simp] theorem Kind.ofName?_name (k : Kind) : Kind.ofName? k.name = some k := by
  cases k <;> rfl

theorem Kind.ofName?_eq_some_iff {type : String} {k : Kind} :
    Kind.ofName? type = some k ↔ type = k.name := by
  constructor
  · intro h
    unfold Kind.ofName? at h
    split at h <;> rename_i h₁
    · cases h
      exact h₁
    · split at h <;> rename_i h₂
      · cases h
        exact h₂
      · cases h
  · rintro rfl
    exact Kind.ofName?_name k

theorem Kind.name_ne_empty (k : Kind) : k.name ≠ "" := by
  cases k <;> decide

theorem Kind.name_injective {j k : Kind} (h : j.name = k.name) : j = k := by
  have hj := Kind.ofName?_name j
  rw [h, Kind.ofName?_name] at hj
  exact (Option.some.inj hj).symm

theorem Kind.read_eq_ok_iff {type : String} {k : Kind} :
    Kind.read type = .ok k ↔ type = k.name := by
  unfold Kind.read
  rw [← Kind.ofName?_eq_some_iff]
  cases Kind.ofName? type with
  | none => exact ⟨(nomatch ·), (nomatch ·)⟩
  | some kind =>
    constructor
    · intro h
      exact congrArg some (Except.ok.inj h)
    · intro h
      exact congrArg Except.ok (Option.some.inj h)

@[simp] theorem Kind.read_name (k : Kind) : Kind.read k.name = .ok k :=
  Kind.read_eq_ok_iff.mpr rfl

/-- The value of a metric. -/
inductive Value where
  | counter (count : Int64)
  | gauge (level : Binary64)
  deriving DecidableEq

namespace Value

def kind : Value → Kind
  | counter _ => .counter
  | gauge _ => .gauge

/-- The value of a metric that nothing has updated yet. -/
def zero : Kind → Value
  | .counter => counter 0
  | .gauge => gauge .zero

instance : Inhabited Value := ⟨zero .counter⟩

/-- The value as a binary64 number. -/
def real : Value → Binary64
  | counter count => .ofInt64 count
  | gauge level => level

/-- The value as a 64-bit integer. -/
def integer : Value → Int64
  | counter count => count
  | gauge level => level.toInt64

-- ---------------------------------------------------------------------------
-- Updates
-- ---------------------------------------------------------------------------

/-- Set a value from a number: a counter grows by the whole part of it, a gauge takes it. -/
def set (x : Binary64) : Value → Value
  | counter count => counter (saturatingAdd count x.toInt64)
  | gauge _ => gauge x

/-- Apply an update by the rule of the value that it is applied to. -/
def apply (update : Value) : Value → Value
  | counter count => counter (saturatingAdd count update.integer)
  | gauge _ => gauge update.real

/-- Back to the start: a counter counts from zero again, a gauge stays. -/
def reset : Value → Value
  | counter _ => counter 0
  | gauge level => gauge level

/-- Take away what has been sent. Only a counter that sent a counter changes, so increments made
    since then stay. -/
def settle (sent : Value) : Value → Value
  | counter count =>
    match sent with
    | counter delivered => counter (saturatingSub count delivered)
    | gauge _ => counter count
  | gauge level => gauge level

@[simp] theorem kind_zero (k : Kind) : (zero k).kind = k := by cases k <;> rfl
@[simp] theorem kind_set (x : Binary64) (v : Value) : (v.set x).kind = v.kind := by
  cases v <;> rfl
@[simp] theorem kind_apply (u v : Value) : (apply u v).kind = v.kind := by cases v <;> rfl
@[simp] theorem kind_reset (v : Value) : v.reset.kind = v.kind := by cases v <;> rfl
@[simp] theorem kind_settle (s v : Value) : (settle s v).kind = v.kind := by
  cases v <;> cases s <;> rfl

-- ---------------------------------------------------------------------------
-- Text
-- ---------------------------------------------------------------------------

/-- The text of a value, which `read` takes back. -/
def text : Value → String
  | counter count => toString count.toInt
  | gauge level => level.text

/-- Read the text of a value of a kind. -/
def read (kind : Kind) (raw : String) : Outcome Value :=
  match kind with
  | .counter =>
    match readInt64 raw with
    | .ok count => .ok (counter count)
    | .error fault =>
      fail (.parsing ("counter value " ++ Text.quote raw ++ ": " ++ fault.message))
  | .gauge =>
    match readReal raw with
    | .ok level => .ok (gauge level)
    | .error fault =>
      fail (.parsing ("gauge value " ++ Text.quote raw ++ ": " ++ fault.message))

/-- Equality of values as numbers: not-a-number equals nothing, and the two zeros are equal. -/
def numericEq : Value → Value → Bool
  | counter a, counter b => a == b
  | gauge a, gauge b => a.numericEq b
  | _, _ => false

/-- A value in diagnostic output. -/
def debug : Value → String
  | counter count => "Counter(" ++ toString count.toInt ++ ")"
  | gauge level => "Gauge(" ++ level.write .debug ++ ")"

end Value

end Telemetry
