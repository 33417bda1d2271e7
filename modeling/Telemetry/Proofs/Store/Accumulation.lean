-- SUMMARY: What any sequence of additions leaves in a fresh store: saturating sums, last values, and the stored instances as answers.
import Mathlib.Tactic.Push
import Telemetry.Proofs.Number.Saturation
import Telemetry.Proofs.Store.Filing

/-!
# Accumulation

Batches of new metrics are added to a store one after the other. Afterwards the store has exactly the
keys that occurred, every counter is the saturating sum of its updates in the order of their arrival,
every gauge has its last value, and every call has answered with the instances under the keys of its
batch. Only the order of the metrics counts, not how they are cut into batches; and as long as no sum can
reach a bound, the order of the batches of different clients does not count either.
-/

namespace Telemetry

/-! ## The updates of a key -/

/-- The values that metrics bring for a key, in order. -/
def updates (metrics : List Metric) (kind : Kind) (name : String) : List Value :=
  (metrics.filter fun m => kind = m.kind ∧ name = m.name).map (·.value)

/-- The amounts by which metrics change the counter of a name, in order. -/
def deltas (metrics : List Metric) (name : String) : List Int64 :=
  (updates metrics .counter name).map Value.integer

/-- The values that metrics give to the gauge of a name, in order. -/
def levels (metrics : List Metric) (name : String) : List Binary64 :=
  (updates metrics .gauge name).map Value.real

theorem updates_cons (m : Metric) (rest : List Metric) (kind : Kind) (name : String) :
    updates (m :: rest) kind name =
      if kind = m.kind ∧ name = m.name then m.value :: updates rest kind name
      else updates rest kind name := by
  unfold updates
  rw [List.filter_cons]
  simp only [decide_eq_true_eq]
  split
  · rw [List.map_cons]
  · rfl

theorem updates_append (xs ys : List Metric) (kind : Kind) (name : String) :
    updates (xs ++ ys) kind name = updates xs kind name ++ updates ys kind name := by
  unfold updates
  rw [List.filter_append, List.map_append]

theorem updates_eq_nil_iff {metrics : List Metric} {kind : Kind} {name : String} :
    updates metrics kind name = [] ↔ ∀ m ∈ metrics, ¬ (kind = m.kind ∧ name = m.name) := by
  unfold updates
  rw [List.map_eq_nil_iff, List.filter_eq_nil_iff]
  exact forall_congr' fun m => imp_congr_right fun _ => not_congr decide_eq_true_iff

theorem kind_of_mem_updates {metrics : List Metric} {kind : Kind} {name : String} {v : Value}
    (h : v ∈ updates metrics kind name) : v.kind = kind := by
  obtain ⟨m, hm, rfl⟩ := List.mem_map.mp h
  exact (of_decide_eq_true (List.mem_filter.mp hm).2).1.symm

theorem updates_perm {xs ys : List Metric} (h : xs.Perm ys) (kind : Kind) (name : String) :
    (updates xs kind name).Perm (updates ys kind name) :=
  (h.filter _).map _

theorem deltas_perm {xs ys : List Metric} (h : xs.Perm ys) (name : String) :
    (deltas xs name).Perm (deltas ys name) :=
  (updates_perm h .counter name).map _

/-- The run takes the steps of several clients one at a time, those of each client in order. -/
inductive Interleaved {α : Type} : List (List α) → List α → Prop where
  | done {clients : List (List α)} (h : ∀ steps ∈ clients, steps = []) : Interleaved clients []
  | step {before after : List (List α)} {x : α} {rest run : List α}
      (h : Interleaved (before ++ rest :: after) run) :
      Interleaved (before ++ (x :: rest) :: after) (x :: run)

/-- A run takes every step of every client once. -/
theorem Interleaved.perm {α : Type} {clients : List (List α)} {run : List α}
    (h : Interleaved clients run) : run.Perm clients.flatten := by
  induction h with
  | done hdone => rw [List.flatten_eq_nil_iff.mpr hdone]
  | @step before after x rest run _ ih =>
    rw [List.flatten_append, List.flatten_cons] at ih ⊢
    exact (ih.cons x).trans List.perm_middle.symm

namespace MemoryStore

/-! ## Adding new instances -/

/-- Add metrics as instances that nobody else holds. -/
def addFresh (s : MemoryStore) (t : Instances) (metrics : List Metric) :
    List Handle × MemoryStore × Instances :=
  let (handles, t) := t.allocAll metrics
  s.add t handles

/-- Add batches of new instances one after the other. The answers of the calls stand in order. -/
def addBatches (s : MemoryStore) (t : Instances) :
    List (List Metric) → List (List Handle) × MemoryStore × Instances
  | [] => ([], s, t)
  | batch :: rest =>
    let (stored, s, t) := s.addFresh t batch
    let (others, s, t) := s.addBatches t rest
    (stored :: others, s, t)

variable {s : MemoryStore} {t : Instances}

/-- Adding a list is adding its first metric and then the others. -/
theorem addFresh_cons (hfiled : s.Filed t) (m : Metric) (rest : List Metric) :
    s.addFresh t (m :: rest) =
      let (h, s, t) := s.addOne (t.append [m]) t.size
      let (others, s, t) := s.addFresh t rest
      (h :: others, s, t) := by
  have hsize : (t.append [m]).size = t.size + 1 := Instances.size_append t [m]
  have hlt : t.size < (t.append [m]).size := by rw [hsize]; exact Nat.lt_succ_self _
  have happend : t.append (m :: rest) = (t.append [m]).append rest :=
    Instances.append_append t [m] rest
  unfold addFresh
  simp only [Instances.allocAll_eq, List.length_cons, List.range'_succ, add, happend,
    addOne_append (hfiled.append [m]) hlt, size_addOne, hsize]

theorem filed_addNew (hfiled : s.Filed t) (m : Metric) :
    (s.addOne (t.append [m]) t.size).2.1.Filed (s.addOne (t.append [m]) t.size).2.2 :=
  filed_addOne (hfiled.append [m]) t.size

theorem filed_addFresh (hfiled : s.Filed t) (metrics : List Metric) :
    (s.addFresh t metrics).2.1.Filed (s.addFresh t metrics).2.2 := by
  induction metrics generalizing s t with
  | nil => exact hfiled
  | cons m rest ih =>
    rw [addFresh_cons hfiled]
    exact ih (filed_addNew hfiled m)

/-- Adding two lists in one call is adding them in two calls. -/
theorem addFresh_append (hfiled : s.Filed t) (xs ys : List Metric) :
    s.addFresh t (xs ++ ys) =
      let (hs, s, t) := s.addFresh t xs
      let (others, s, t) := s.addFresh t ys
      (hs ++ others, s, t) := by
  induction xs generalizing s t with
  | nil => rfl
  | cons m rest ih =>
    rw [List.cons_append, addFresh_cons hfiled, addFresh_cons hfiled]
    dsimp only
    rw [ih (filed_addNew hfiled m)]
    rfl

theorem addBatches_cons (s : MemoryStore) (t : Instances) (batch : List Metric)
    (rest : List (List Metric)) :
    s.addBatches t (batch :: rest) =
      let (stored, s, t) := s.addFresh t batch
      let (others, s, t) := s.addBatches t rest
      (stored :: others, s, t) := rfl

/-- Only the metrics and their order count, not how they are cut into batches. -/
theorem addBatches_eq_addFresh (hfiled : s.Filed t) (batches : List (List Metric)) :
    ((s.addBatches t batches).1.flatten, (s.addBatches t batches).2) =
      s.addFresh t batches.flatten := by
  induction batches generalizing s t with
  | nil => rfl
  | cons batch rest ih =>
    rw [List.flatten_cons, addFresh_append hfiled]
    dsimp only
    rw [← ih (filed_addFresh hfiled batch)]
    rfl

/-! ## Answers -/

/-- Once filed, an instance stays under its key. -/
theorem find?_addFresh_of_some (hfiled : s.Filed t) (metrics : List Metric) {k : Kind}
    {n : String} {h : Handle} (hfind : s.find? k n = some h) :
    (s.addFresh t metrics).2.1.find? k n = some h := by
  induction metrics generalizing s t with
  | nil => exact hfind
  | cons m rest ih =>
    rw [addFresh_cons hfiled]
    exact ih (filed_addNew hfiled m) (find?_addOne_of_some t.size hfind)

/-- A call answers with the instances that stand under the keys of its metrics afterwards. -/
theorem answers_addFresh (hfiled : s.Filed t) (metrics : List Metric) :
    (s.addFresh t metrics).1.map some =
      metrics.map fun m => (s.addFresh t metrics).2.1.find? m.kind m.name := by
  induction metrics generalizing s t with
  | nil => rfl
  | cons m rest ih =>
    have hnew : (t.append [m]).get? t.size = some m := Instances.get?_append_size t m []
    rw [addFresh_cons hfiled]
    dsimp only
    rw [List.map_cons, List.map_cons, ih (filed_addNew hfiled m)]
    congr 1
    refine (find?_addFresh_of_some (filed_addNew hfiled m) rest ?_).symm
    rw [find?_addOne hnew, if_pos ⟨rfl, rfl⟩]

theorem answers_addBatches (hfiled : s.Filed t) (batches : List (List Metric)) :
    (s.addBatches t batches).1.map (·.map some) =
      batches.map (·.map fun m => (s.addBatches t batches).2.1.find? m.kind m.name) := by
  induction batches generalizing s t with
  | nil => rfl
  | cons batch rest ih =>
    have hrest := filed_addFresh hfiled batch
    have hlater : ((s.addFresh t batch).2.1.addBatches (s.addFresh t batch).2.2 rest).2 =
        ((s.addFresh t batch).2.1.addFresh (s.addFresh t batch).2.2 rest.flatten).2 :=
      congrArg Prod.snd (addBatches_eq_addFresh hrest rest)
    rw [addBatches_cons]
    dsimp only
    rw [List.map_cons, List.map_cons]
    refine congr (congrArg List.cons ?_) (ih hrest)
    -- What the call answers is filed by then and stays where it is under the calls that follow.
    rw [answers_addFresh hfiled batch, congrArg Prod.fst hlater]
    refine List.map_congr_left fun m hm => ?_
    obtain ⟨h, hfind⟩ : ∃ h, (s.addFresh t batch).2.1.find? m.kind m.name = some h := by
      have hmem := List.mem_map_of_mem (f := fun m =>
        (s.addFresh t batch).2.1.find? m.kind m.name) hm
      rw [← answers_addFresh hfiled batch] at hmem
      obtain ⟨h, -, hsome⟩ := List.mem_map.mp hmem
      exact ⟨h, hsome.symm⟩
    rw [hfind, find?_addFresh_of_some hrest rest.flatten hfind]

/-! ## Values -/

theorem value?_addNew (hfiled : s.Filed t) (m : Metric) (k : Kind) (n : String) :
    (s.addOne (t.append [m]) t.size).2.1.value? (s.addOne (t.append [m]) t.size).2.2 k n =
      if k = m.kind ∧ n = m.name then some (absorb m.value (s.value? t k n))
      else s.value? t k n := by
  rw [value?_addOne (hfiled.append [m]) (Instances.get?_append_size t m []),
    value?_append hfiled]

/-- Additions leave under a key what its updates make of the value before, one after the other. -/
theorem value?_addFresh (hfiled : s.Filed t) (metrics : List Metric) (k : Kind) (n : String) :
    (s.addFresh t metrics).2.1.value? (s.addFresh t metrics).2.2 k n =
      (updates metrics k n).foldl (fun before v => some (absorb v before)) (s.value? t k n) := by
  induction metrics generalizing s t with
  | nil => rfl
  | cons m rest ih =>
    rw [addFresh_cons hfiled]
    dsimp only
    rw [ih (filed_addNew hfiled m), value?_addNew hfiled, updates_cons]
    split
    · rw [List.foldl_cons]
    · rfl

/-- A key whose updates are absorbed has a value if it had one before or if there are any. -/
theorem foldl_absorb_isSome (vs : List Value) (before : Option Value) :
    (vs.foldl (fun before v => some (absorb v before)) before).isSome ↔
      before.isSome ∨ vs ≠ [] := by
  induction vs generalizing before with
  | nil => exact (or_iff_left (not_not_intro rfl)).symm
  | cons v vs ih =>
    rw [List.foldl_cons, ih]
    exact iff_of_true (.inl rfl) (.inr (List.cons_ne_nil v vs))

/-- Updates of a counter add up. -/
theorem foldl_absorb_counter {vs : List Value} (hvs : ∀ v ∈ vs, v.kind = .counter)
    (start : Int64) :
    vs.foldl (fun before v => some (absorb v before)) (some (.counter start)) =
      some (.counter ((vs.map Value.integer).foldl saturatingAdd start)) := by
  induction vs generalizing start with
  | nil => rfl
  | cons v vs ih =>
    cases v with
    | gauge level => cases hvs _ List.mem_cons_self
    | counter delta => exact ih (fun v hv => hvs v (List.mem_cons_of_mem _ hv)) _

/-- The first update of a counter is stored as it is, and the others add up onto it. -/
theorem foldl_absorb_counter_none {vs : List Value} (hvs : ∀ v ∈ vs, v.kind = .counter) :
    vs.foldl (fun before v => some (absorb v before)) none =
      if vs = [] then none else some (.counter (saturatingSum (vs.map Value.integer))) := by
  cases vs with
  | nil => rfl
  | cons v vs =>
    cases v with
    | gauge level => cases hvs _ List.mem_cons_self
    | counter delta =>
      rw [if_neg (List.cons_ne_nil _ _), List.foldl_cons]
      refine (foldl_absorb_counter (fun v hv => hvs v (List.mem_cons_of_mem _ hv)) delta).trans ?_
      unfold saturatingSum
      rw [List.map_cons, List.foldl_cons]
      exact congrArg (fun start => some (Value.counter (List.foldl saturatingAdd start _)))
        (zero_saturatingAdd delta).symm

/-- Of the updates of a gauge the last one stays. -/
theorem foldl_absorb_gauge {vs : List Value} (hvs : ∀ v ∈ vs, v.kind = .gauge)
    {before : Option Value} (hbefore : ∀ v ∈ before, v.kind = .gauge) :
    vs.foldl (fun before v => some (absorb v before)) before =
      ((vs.map Value.real).getLast?.map Value.gauge).or before := by
  induction vs generalizing before with
  | nil => rfl
  | cons v vs ih =>
    have habsorb : absorb v before = v := by
      cases v with
      | counter delta => cases hvs _ List.mem_cons_self
      | gauge level =>
        cases before with
        | none => rfl
        | some stored =>
          cases stored with
          | counter c => cases hbefore _ rfl
          | gauge x => rfl
    have hv : v = .gauge v.real := by
      cases v with
      | counter delta => cases hvs _ List.mem_cons_self
      | gauge level => rfl
    have hvs' : ∀ u ∈ vs, u.kind = .gauge := fun u hu => hvs u (List.mem_cons_of_mem _ hu)
    have hsome : ∀ u ∈ some v, u.kind = .gauge := by
      intro u hu
      cases hu
      exact hvs v List.mem_cons_self
    rw [List.foldl_cons, habsorb, ih hvs' hsome, List.map_cons, List.getLast?_cons]
    cases (vs.map Value.real).getLast? with
    | none => exact congrArg some hv
    | some last => rfl

/-- What additions leave in a store without metrics: saturating sums and last values. -/
theorem value?_addFresh_empty (t : Instances) (metrics : List Metric) :
    (∀ name, (empty.addFresh t metrics).2.1.value? (empty.addFresh t metrics).2.2 .counter name =
      if deltas metrics name = [] then none
      else some (.counter (saturatingSum (deltas metrics name)))) ∧
    (∀ name, (empty.addFresh t metrics).2.1.value? (empty.addFresh t metrics).2.2 .gauge name =
      (levels metrics name).getLast?.map .gauge) := by
  constructor
  · intro name
    rw [value?_addFresh (filed_empty t), value?_empty,
      foldl_absorb_counter_none fun v hv => kind_of_mem_updates hv]
    simp only [deltas, List.map_eq_nil_iff]
  · intro name
    rw [value?_addFresh (filed_empty t), value?_empty,
      foldl_absorb_gauge (fun v hv => kind_of_mem_updates hv) (fun v hv => absurd hv (Option.not_mem_none v)),
      Option.or_none]
    rfl

/-! ## Whole runs -/

/-- The store after batches have been added to a fresh one is the store after their metrics have been
added in one call. -/
theorem addBatches_empty (t : Instances) (batches : List (List Metric)) :
    (empty.addBatches t batches).2 = (empty.addFresh t batches.flatten).2 :=
  congrArg Prod.snd (addBatches_eq_addFresh (filed_empty t) batches)

/-- The keys of a store that batches have been added to are the keys of their metrics. -/
theorem find?_addBatches_isSome_iff (t : Instances) (batches : List (List Metric)) (k : Kind)
    (n : String) :
    ((empty.addBatches t batches).2.1.find? k n).isSome ↔
      ∃ m ∈ batches.flatten, m.kind = k ∧ m.name = n := by
  have hfiled := filed_addFresh (filed_empty t) batches.flatten
  rw [addBatches_empty, ← value?_isSome_iff hfiled, value?_addFresh (filed_empty t),
    value?_empty, foldl_absorb_isSome, ne_eq, updates_eq_nil_iff]
  constructor
  · rintro (h | h)
    · cases h
    · push Not at h
      obtain ⟨m, hm, hkind, hname⟩ := h
      exact ⟨m, hm, hkind.symm, hname.symm⟩
  · rintro ⟨m, hm, hkind, hname⟩
    exact .inr fun h => h m hm ⟨hkind.symm, hname.symm⟩

/-- If the magnitudes of the updates of a counter cannot reach a bound, every run of several clients
leaves it at the exact sum of the updates of all of them. -/
theorem toInt_saturatingSum_of_interleaved {clients : List (List (List Metric))}
    {run : List (List Metric)} (hrun : Interleaved clients run) {name : String}
    (hbound : absoluteSum (deltas clients.flatten.flatten name) ≤ Int64.maxValue.toInt) :
    (saturatingSum (deltas run.flatten name)).toInt =
      exactSum (deltas clients.flatten.flatten name) := by
  have hperm : (deltas run.flatten name).Perm (deltas clients.flatten.flatten name) :=
    deltas_perm hrun.perm.flatten name
  rw [← absoluteSum_perm hperm] at hbound
  rw [toInt_saturatingSum (inRange_exactSum_take hbound), exactSum_perm hperm]

/-- Two runs of the same clients leave a counter that cannot reach a bound at the same value. -/
theorem value?_counter_of_interleaved (t u : Instances) {clients : List (List (List Metric))}
    {run other : List (List Metric)} (hrun : Interleaved clients run)
    (hother : Interleaved clients other) {name : String}
    (hbound : absoluteSum (deltas clients.flatten.flatten name) ≤ Int64.maxValue.toInt) :
    (empty.addBatches t run).2.1.value? (empty.addBatches t run).2.2 .counter name =
      (empty.addBatches u other).2.1.value? (empty.addBatches u other).2.2 .counter name := by
  have hsum : saturatingSum (deltas run.flatten name) = saturatingSum (deltas other.flatten name) :=
    Int64.toInt_inj.mp ((toInt_saturatingSum_of_interleaved hrun hbound).trans
      (toInt_saturatingSum_of_interleaved hother hbound).symm)
  have hempty : deltas run.flatten name = [] ↔ deltas other.flatten name = [] := by
    have hperm := deltas_perm (hrun.perm.trans hother.perm.symm).flatten name
    exact ⟨fun h => List.nil_perm.mp (h ▸ hperm), fun h => List.perm_nil.mp (h ▸ hperm)⟩
  rw [addBatches_empty, addBatches_empty, (value?_addFresh_empty t run.flatten).1,
    (value?_addFresh_empty u other.flatten).1, hsum]
  exact if_congr hempty rfl rfl

/-- Batches of new metrics leave in a fresh store exactly their keys, every counter at the saturating sum
of its updates in order, which is their exact sum while no partial sum leaves the range, and every gauge
at its last value. Every call answers with the instances that stand under the keys of its batch. The cuts
between batches do not count, and neither does the order in which several clients come, as long as the
magnitudes of the updates of a counter add up to no more than the upper bound. -/
theorem addBatches_accumulates (t : Instances) (batches : List (List Metric)) :
    let after := empty.addBatches t batches
    let stored := after.2.1
    let instances := after.2.2
    let all := batches.flatten
    (∀ k n, (stored.find? k n).isSome ↔ ∃ m ∈ all, m.kind = k ∧ m.name = n) ∧
    (∀ name, deltas all name ≠ [] →
      stored.value? instances .counter name =
        some (.counter (saturatingSum (deltas all name)))) ∧
    (∀ name, (∀ k, InRange (exactSum ((deltas all name).take k))) →
      (saturatingSum (deltas all name)).toInt = exactSum (deltas all name)) ∧
    (∀ name, stored.value? instances .gauge name = (levels all name).getLast?.map .gauge) ∧
    after.1.map (·.map some) = batches.map (·.map fun m => stored.find? m.kind m.name) ∧
    (∀ cut : List (List Metric), cut.flatten = all →
      (empty.addBatches t cut).1.flatten = after.1.flatten ∧
        (empty.addBatches t cut).2 = after.2) ∧
    (∀ clients : List (List (List Metric)), Interleaved clients batches →
      (∀ name, absoluteSum (deltas clients.flatten.flatten name) ≤ Int64.maxValue.toInt) →
      (∀ name, (saturatingSum (deltas all name)).toInt =
        exactSum (deltas clients.flatten.flatten name)) ∧
      ∀ other, Interleaved clients other → ∀ name,
        (empty.addBatches t other).2.1.value? (empty.addBatches t other).2.2 .counter name =
          stored.value? instances .counter name) := by
  have hflat := addBatches_eq_addFresh (filed_empty t) batches
  have hvalues := value?_addFresh_empty t batches.flatten
  intro after stored instances all
  refine ⟨find?_addBatches_isSome_iff t batches, ?counters, fun name => toInt_saturatingSum, ?gauges,
    answers_addBatches (filed_empty t) batches, ?cuts, ?clients⟩
  case counters =>
    intro name hdeltas
    have hvalue := hvalues.1 name
    rw [if_neg hdeltas] at hvalue
    rwa [← addBatches_empty] at hvalue
  case gauges =>
    intro name
    have hvalue := hvalues.2 name
    rwa [← addBatches_empty] at hvalue
  case cuts =>
    intro cut hcut
    have hother := addBatches_eq_addFresh (filed_empty t) cut
    rw [hcut, ← hflat] at hother
    exact Prod.ext_iff.mp hother
  case clients =>
    intro clients hclients hbound
    refine ⟨fun name => toInt_saturatingSum_of_interleaved hclients (hbound name), ?_⟩
    intro other hother name
    exact value?_counter_of_interleaved t t hother hclients (hbound name)

end MemoryStore

end Telemetry
