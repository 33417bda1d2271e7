-- SUMMARY: Amounts of counters: what metrics carry, what instances hold, what a collector has, and how each operation changes it.
import Mathlib
import Telemetry.Agent.Cycle
import Telemetry.Collector.Basic
import Telemetry.Proofs.Store.Refusal
import Telemetry.Proofs.Wire.Conversion

/-!
# Amounts

The amount of a counter is an integer without bounds. As long as nothing is stopped at a bound, an update
changes the amount that instances hold by what it says, settling takes away what was carried, and storing
records adds what they carry.
-/

namespace Telemetry

/-- What metrics carry for the counter of a name, all together. -/
def amount (metrics : List Metric) (name : String) : Int :=
  exactSum (deltas metrics name)

/-- What a metric carries for the counter of a name. -/
def Metric.share (m : Metric) (name : String) : Int :=
  if Kind.counter = m.kind ∧ name = m.name then m.value.integer.toInt else 0

@[simp] theorem amount_nil (name : String) : amount [] name = 0 := rfl

@[simp] theorem amount_cons (m : Metric) (metrics : List Metric) (name : String) :
    amount (m :: metrics) name = m.share name + amount metrics name := by
  unfold amount deltas Metric.share
  rw [updates_cons]
  split
  · simp
  · simp

@[simp] theorem amount_append (xs ys : List Metric) (name : String) :
    amount (xs ++ ys) name = amount xs name + amount ys name := by
  induction xs with
  | nil => simp
  | cons m xs ih => simp [ih, Int.add_assoc]

/-- A change of one metric changes the amount by as much. -/
theorem amount_modify {metrics : List Metric} {i : Nat} {m : Metric} (h : metrics[i]? = some m)
    (f : Metric → Metric) (name : String) :
    amount (metrics.modify i f) name = amount metrics name + ((f m).share name - m.share name) := by
  induction metrics generalizing i with
  | nil => simp at h
  | cons first rest ih =>
    cases i with
    | zero =>
      obtain rfl : first = m := by simpa using h
      simp only [List.modify_zero_cons, amount_cons]
      omega
    | succ i =>
      have hrest := ih (i := i) (by simpa using h)
      simp only [List.modify_succ_cons, amount_cons, hrest]
      omega

/-! ## What instances hold -/

namespace Instances

/-- What the instances of the counters of a name hold. -/
def held (t : Instances) (name : String) : Int :=
  amount t.cells.toList name

theorem held_update {t : Instances} {h : Handle} {m : Metric} (hget : t.get? h = some m)
    (f : Value → Value) (name : String) :
    (t.update h f).held name = t.held name + ((m.update f).share name - m.share name) := by
  unfold held update
  rw [Array.toList_modify]
  exact amount_modify (by simpa [get?] using hget) _ name

theorem update_of_get?_eq_none {t : Instances} {h : Handle} (hget : t.get? h = none)
    (f : Value → Value) : t.update h f = t := by
  refine ext_get? fun other => ?_
  rw [get?_update]
  split
  · rename_i heq
    rw [← heq, hget]
    rfl
  · rfl

end Instances

/-- A value can change by an amount without leaving the range. -/
def Value.CanChange (delta : Int) : Value → Prop
  | counter count => InRange (count.toInt + delta)
  | gauge _ => True

theorem Metric.share_set {m : Metric} {x : Binary64} (h : m.value.CanChange x.toInt64.toInt)
    (name : String) :
    (m.update (Value.set x)).share name =
      m.share name +
        if Kind.counter = m.kind ∧ name = m.name then x.toInt64.toInt else 0 := by
  obtain ⟨n, value⟩ := m
  cases value with
  | gauge level => simp [share, Metric.kind, Value.kind, update, Value.set]
  | counter count =>
    have hadd := toInt_saturatingAdd h
    simp only [share, Metric.kind, Value.kind, update, Value.set, Value.integer, true_and, hadd]
    split <;> simp

theorem Metric.share_settle {m sent : Metric} (hname : sent.name = m.name)
    (hkind : sent.kind = m.kind) (h : m.value.CanChange (-sent.value.integer.toInt)) (name : String) :
    (m.update (Value.settle sent.value)).share name = m.share name - sent.share name := by
  obtain ⟨n, value⟩ := m
  obtain ⟨n', carried⟩ := sent
  subst hname
  cases value with
  | gauge level =>
    cases carried with
    | counter delivered => cases hkind
    | gauge level' => simp [share, Metric.kind, Value.kind, update, Value.settle]
  | counter count =>
    cases carried with
    | gauge level => cases hkind
    | counter delivered =>
      have hsub := toInt_saturatingSub (a := count) (b := delivered) (by
        simpa [Value.CanChange, Value.integer, Int.sub_eq_add_neg] using h)
      simp only [share, Metric.kind, Value.kind, update, Value.settle, Value.integer, true_and, hsub]
      split <;> simp

/-! ## Settling -/

namespace Agent

/-- The handle that a metric was read from still has a metric of its name and kind. -/
def Backed (t : Instances) (q : Handle × Metric) : Prop :=
  ∃ m, t.get? q.1 = some m ∧ q.2.name = m.name ∧ q.2.kind = m.kind

theorem Backed.update {t : Instances} {q : Handle × Metric} (hq : Backed t q) (h : Handle)
    {f : Value → Value} (hf : ∀ v, (f v).kind = v.kind) : Backed (t.update h f) q := by
  obtain ⟨m, hm, hname, hkind⟩ := hq
  unfold Backed
  rw [Instances.get?_update, hm]
  split
  · exact ⟨m.update f, rfl, hname, hkind.trans (hf m.value).symm⟩
  · exact ⟨m, rfl, hname, hkind⟩

namespace Cycle

/-- One after the other, what is carried can be taken away without leaving the range. -/
def CanSettle (carried : List (Handle × Metric)) (t : Instances) : Prop :=
  ∀ before q after, carried = before ++ q :: after →
    ∀ m, (settle before t).get? q.1 = some m → m.value.CanChange (-q.2.value.integer.toInt)

theorem settle_cons (q : Handle × Metric) (carried : List (Handle × Metric)) (t : Instances) :
    settle (q :: carried) t = settle carried (t.update q.1 (Value.settle q.2.value)) := rfl

/-- Settling takes away what was carried. -/
theorem held_settle {carried : List (Handle × Metric)} {t : Instances}
    (hbacked : ∀ q ∈ carried, Backed t q) (hfits : CanSettle carried t) (name : String) :
    (settle carried t).held name = t.held name - amount (carried.map (·.2)) name := by
  induction carried generalizing t with
  | nil => simp [settle]
  | cons q carried ih =>
    obtain ⟨m, hm, hname, hkind⟩ := hbacked q List.mem_cons_self
    have hbacked' : ∀ q' ∈ carried, Backed (t.update q.1 (Value.settle q.2.value)) q' :=
      fun q' hq' => (hbacked q' (List.mem_cons_of_mem _ hq')).update q.1 (Value.kind_settle _)
    have hfits' : CanSettle carried (t.update q.1 (Value.settle q.2.value)) :=
      fun before q' after heq => hfits (q :: before) q' after (congrArg (q :: ·) heq)
    have hshare := Metric.share_settle hname hkind (hfits [] q carried rfl m hm) name
    rw [settle_cons, ih hbacked' hfits', Instances.held_update hm, hshare, List.map_cons,
      amount_cons]
    omega

end Cycle

theorem Backed.settle {t : Instances} {q : Handle × Metric} (hq : Backed t q)
    (carried : List (Handle × Metric)) : Backed (Cycle.settle carried t) q := by
  induction carried generalizing t with
  | nil => exact hq
  | cons first carried ih => exact ih (hq.update first.1 (Value.kind_settle _))

end Agent

/-! ## What a collector has -/

/-- The amount of a counter that may not be there. -/
def Value.countOf (value : Option Value) : Int :=
  (value.map fun v => v.integer.toInt).getD 0

/-- If no partial sum leaves the range, updates of a counter add their exact sum to it. -/
theorem Value.countOf_absorbed {vs : List Value} (hvs : ∀ v ∈ vs, v.kind = .counter)
    {before : Option Value} (hbefore : ∀ v ∈ before, v.kind = .counter)
    (hfits : ∀ k, InRange (countOf before + exactSum ((vs.map Value.integer).take k))) :
    countOf (vs.foldl (fun before v => some (MemoryStore.absorb v before)) before) =
      countOf before + exactSum (vs.map Value.integer) := by
  cases before with
  | none =>
    have hsum : ∀ k, InRange (exactSum ((vs.map Value.integer).take k)) := by
      intro k
      simpa [countOf] using hfits k
    rw [MemoryStore.foldl_absorb_counter_none hvs]
    split
    · rename_i hnil
      simp [hnil, countOf]
    · simp [countOf, Value.integer, toInt_saturatingSum hsum]
  | some stored =>
    cases stored with
    | gauge level => cases hbefore _ rfl
    | counter count =>
      rw [MemoryStore.foldl_absorb_counter hvs]
      exact toInt_foldl_saturatingAdd _ count hfits

namespace Collector

/-- The amount of the counter of a name. -/
def collected (c : Collector) (name : String) : Int :=
  Value.countOf (c.storage.value? .counter name)

/-- The memory files every instance under its own key. -/
def Filed (c : Collector) : Prop :=
  c.storage.memory.Filed c.storage.instances

/-- Metrics can be added one after the other without leaving the range of any counter. -/
def CanStore (c : Collector) (metrics : List Metric) : Prop :=
  ∀ name k, InRange (c.collected name + exactSum ((deltas metrics name).take k))

/-- Storing records adds what the metrics carry that they were made of. -/
theorem collected_store {c c' : Collector} {sender : Wire.Converter} {metrics : List Metric}
    {records answer : List Wire.Record} (hfiled : c.Filed)
    (hencode : metrics.mapM sender.encode = .ok records)
    (hstore : c.store records = (.ok answer, c')) (hfits : c.CanStore metrics) :
    c'.Filed ∧ ∀ name, c'.collected name = c.collected name + amount metrics name := by
  unfold store at hstore
  split at hstore
  · cases hstore
  · rename_i metrics' hdecode
    obtain rfl := Wire.Converter.eq_of_mapM_decode_encode hencode hdecode
    obtain rfl : (c.addMetrics metrics').2 = c' := (Prod.ext_iff.mp hstore).2
    refine ⟨Storage.filed_addNew hfiled metrics', fun name => ?_⟩
    have hvalue : (c.addMetrics metrics').2.storage.value? .counter name = _ :=
      Storage.value?_addNew hfiled metrics' .counter name
    unfold collected
    rw [hvalue]
    refine Value.countOf_absorbed (fun v hv => kind_of_mem_updates hv) ?_ (hfits name)
    intro v hv
    exact MemoryStore.kind_of_value? hfiled hv

end Collector

end Telemetry
