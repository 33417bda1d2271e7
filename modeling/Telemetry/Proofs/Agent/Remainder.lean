-- SUMMARY: What a push leaves in the instances: counters without what arrived of them, and everything else as the polls make it.
import Mathlib
import Telemetry.Proofs.Agent.Conservation
import Telemetry.Proofs.Agent.Settling

/-!
# Remainders

Of a counter, a push takes away what the deliveries carried whose arrival it heard of, no matter what polls
add meanwhile, in which order replies come and which of them say that a delivery failed. It leaves gauges
alone, and every instance that no such delivery carried.
-/

namespace Telemetry.Agent.Push

variable {p : Pusher} {w w' : Push} {handle : Handle} {name : String} {i : Int}

/-! ## Counters -/

/-- The instance is a counter with this count. -/
def Counts (w : Push) (handle : Handle) (name : String) (i : Int) : Prop :=
  ∃ count, w.agent.get? handle = some ⟨name, .counter count⟩ ∧ count.toInt = i

theorem Counts.poll (h : w.Counts handle name i) {other : Handle} {x : Binary64}
    (hrange : InRange (i + increment handle (.poll other x))) :
    (w.step p (.poll other x)).Counts handle name (i + increment handle (.poll other x)) := by
  obtain ⟨count, hget, rfl⟩ := h
  simp only [increment] at hrange ⊢
  unfold Counts Push.step
  rw [Instances.get?_update, hget]
  by_cases heq : other = handle
  · simp only [if_pos heq] at hrange ⊢
    exact ⟨_, rfl, toInt_saturatingAdd hrange⟩
  · simp only [if_neg heq, Int.add_zero]
    exact ⟨count, rfl, rfl⟩

/-- What is taken away of the next metric is what has been taken away more after it. -/
theorem settledFor_of_pending {q : Handle × Metric} {pending : List (Handle × Metric)}
    (hpending : w.pending = q :: pending) (agent : Instances) :
    ({ w with agent, pending } : Push).settledFor handle =
      w.settledFor handle + if q.1 = handle then q.2.value.integer.toInt else 0 := by
  simp only [settledFor, arrivedFor, hpending, carriedFor_cons]
  omega

theorem Counts.settle (h : w.Counts handle name i)
    (hkind : ∀ q ∈ w.pending, q.1 = handle → q.2.kind = .counter)
    (hrange : InRange (i - (w.settle.settledFor handle - w.settledFor handle))) :
    w.settle.Counts handle name (i - (w.settle.settledFor handle - w.settledFor handle)) := by
  obtain hsame | ⟨⟨other, sent⟩, pending, hpending, hsettle⟩ := settle_cases w
  · rw [hsame, Int.sub_self, Int.sub_zero]
    exact h
  · obtain ⟨count, hget, rfl⟩ := h
    rw [hsettle, settledFor_of_pending hpending, Int.add_comm (w.settledFor handle),
      Int.add_sub_cancel] at hrange ⊢
    unfold Counts
    rw [Instances.get?_update, hget]
    by_cases heq : other = handle
    · simp only [if_pos heq] at hrange ⊢
      have hcounter : sent.kind = .counter := hkind (other, sent) (by simp [hpending]) heq
      obtain ⟨n, value⟩ := sent
      cases value with
      | gauge level => cases hcounter
      | counter delivered => exact ⟨_, rfl, toInt_saturatingSub hrange⟩
    · simp only [if_neg heq, Int.sub_zero]
      exact ⟨count, rfl, rfl⟩

theorem Counts.of_spares (h : w.Counts handle name i) (hspares : w.Spares w') :
    w'.Counts handle name (i + 0 - (w'.settledFor handle - w.settledFor handle)) := by
  rw [hspares.settledFor, Int.sub_self, Int.add_zero, Int.sub_zero]
  unfold Counts
  rw [hspares.agent]
  exact h

/-- As long as the range is not left, a step changes a counter by what it adds to it and what it takes away
    from it. -/
theorem Counts.step (h : w.Counts handle name i)
    (hkind : ∀ q ∈ w.pending, q.1 = handle → q.2.kind = .counter) {e : Event}
    (hrange : InRange
      (i + increment handle e - ((w.step p e).settledFor handle - w.settledFor handle))) :
    (w.step p e).Counts handle name
      (i + increment handle e - ((w.step p e).settledFor handle - w.settledFor handle)) := by
  cases e with
  | poll other x =>
    have hsettled : (w.step p (.poll other x)).settledFor handle = w.settledFor handle := rfl
    rw [hsettled, Int.sub_self, Int.sub_zero] at hrange ⊢
    exact h.poll hrange
  | copy => exact h.of_spares (spares_copy p w)
  | send => exact h.of_spares (spares_send p w)
  | hear n reply => exact h.of_spares (spares_hear p n reply w)
  | settle =>
    simp only [increment, Int.add_zero] at hrange ⊢
    exact h.settle hkind hrange
  | cancel => exact h.of_spares (spares_cancel w)

theorem increments_nil (handle : Handle) : increments handle [] = 0 := rfl

theorem increments_cons (handle : Handle) (e : Event) (events : List Event) :
    increments handle (e :: events) = increment handle e + increments handle events := rfl

theorem Counts.run (h : w.Counts handle name i) {events : List Event}
    (hkind : ∀ k, ∀ q ∈ (w.run p (events.take k)).pending, q.1 = handle → q.2.kind = .counter)
    (hrange : ∀ k ≤ events.length, InRange (i + increments handle (events.take k) -
      ((w.run p (events.take k)).settledFor handle - w.settledFor handle))) :
    (w.run p events).Counts handle name (i + increments handle events -
      ((w.run p events).settledFor handle - w.settledFor handle)) := by
  induction events generalizing w i with
  | nil =>
    rw [run, List.foldl_nil, Int.sub_self, Int.sub_zero, increments_nil, Int.add_zero]
    exact h
  | cons e events ih =>
    -- The sums of the rest are those of the whole run from the second moment on.
    have hfirst := hrange 1 (by simp)
    simp only [List.take_succ_cons, List.take_zero, increments_cons] at hfirst
    have hstep := h.step (hkind 0) (p := p) (e := e) (by simpa [run, increments] using hfirst)
    have hrest := ih hstep (fun k => hkind (k + 1)) fun k hk => by
      have := hrange (k + 1) (by simpa using hk)
      simp only [List.take_succ_cons, increments_cons] at this
      convert this using 1
      simp only [run, List.foldl_cons]
      omega
    have hsame : w.run p (e :: events) = (w.step p e).run p events := rfl
    rw [hsame, increments_cons]
    convert hrest using 1
    omega

/-! ## Instances that nothing is taken away from -/

/-- Nothing that is still to be taken away changes the instance. -/
def Exempt (w : Push) (handle : Handle) : Prop :=
  ∀ q ∈ w.pending, q.1 = handle → ∀ m, w.agent.get? handle = some m → m.kind = .gauge

theorem get?_settle (h : w.Exempt handle) : w.settle.agent.get? handle = w.agent.get? handle := by
  obtain hsame | ⟨⟨other, sent⟩, pending, hpending, hsettle⟩ := settle_cases w
  · rw [hsame]
  · rw [hsettle, Instances.get?_update]
    split
    · rename_i heq
      cases hget : w.agent.get? handle with
      | none => rfl
      | some m =>
        have hgauge : m.kind = .gauge := h (other, sent) (by simp [hpending]) heq m hget
        obtain ⟨n, value⟩ := m
        cases value with
        | counter count => cases hgauge
        | gauge level => rfl
    · rfl

theorem get?_step (h : w.Exempt handle) (e : Event) {t : Instances}
    (hsame : w.agent.get? handle = t.get? handle) :
    (w.step p e).agent.get? handle = (polled t [e]).get? handle := by
  cases e with
  | poll other x =>
    change (w.agent.update other (Value.set x)).get? handle =
      (t.update other (Value.set x)).get? handle
    rw [Instances.get?_update, Instances.get?_update, hsame]
  | copy => exact (congrArg (·.get? handle) (spares_copy p w).agent).trans hsame
  | send => exact (congrArg (·.get? handle) (spares_send p w).agent).trans hsame
  | hear n reply => exact (congrArg (·.get? handle) (spares_hear p n reply w).agent).trans hsame
  | settle => exact (get?_settle h).trans hsame
  | cancel => exact (congrArg (·.get? handle) (spares_cancel w).agent).trans hsame

/-- Of an instance that nothing is taken away from, a run shows the polls and nothing else. -/
theorem get?_run {events : List Event} (h : ∀ k, (w.run p (events.take k)).Exempt handle)
    {t : Instances} (hsame : w.agent.get? handle = t.get? handle) :
    (w.run p events).agent.get? handle = (polled t events).get? handle := by
  induction events generalizing w t with
  | nil => exact hsame
  | cons e events ih => exact ih (fun k => h (k + 1)) (get?_step (h 0) e hsame)

/-! ## Remainders -/

theorem run_take_append_drop (w : Push) (events : List Event) (k : Nat) :
    w.run p events = (w.run p (events.take k)).run p (events.drop k) := by
  rw [run, run, run, ← List.foldl_append, List.take_append_drop]

variable {t : Instances} {handles : List Handle} {events : List Event}

/-- What is still to be taken away at some moment of a run is part of a delivery that has arrived at its
    end. -/
theorem exists_arrived_of_mem_pending (k : Nat) {q : Handle × Metric}
    (hq : q ∈ ((start p t handles).run p (events.take k)).pending) :
    ∃ f ∈ ((start p t handles).run p events).arrived, q ∈ f.carried := by
  have hfaithful : ((start p t handles).run p (events.take k)).Faithful p handles fun _ => True :=
    (faithful_start p t handles _).run fun _ _ _ => trivial
  obtain ⟨f, hf, hcarried⟩ := hfaithful.pending q hq
  refine ⟨f, ?_, hcarried⟩
  rw [run_take_append_drop _ events k]
  exact arrived_subset_run p _ _ hf

theorem backed_start {q : Handle × Metric} (hq : t.get? q.1 = some q.2) : Backed t q :=
  ⟨q.2, hq, rfl, rfl⟩

/-- What is still to be taken away was read from instances that the push began with. -/
theorem backed_of_mem_pending {q : Handle × Metric}
    (hq : q ∈ ((start p t handles).run p events).pending) : Backed t q := by
  have hfaithful : ((start p t handles).run p events).Faithful p handles (Backed t) :=
    (faithful_start p t handles _).run fun k q hq =>
      backed_run (fun _ => backed_start) (events.take k) hq
  obtain ⟨f, hf, hcarried⟩ := hfaithful.pending q hq
  exact (hfaithful.arrived f hf).seen q hcarried

/-- Over every run of a push, with polls between any two of its steps, replies in any order and failures
    among them: the deliveries that have arrived are those whose reply said so while they were on their way,
    and each carries a batch of the push, with the metrics as their instances were at some moment. Gauges
    are what the polls make of them, and so is every instance that nothing has arrived of. A counter is, when
    nothing is left to be taken away, what it was and what the polls have added to it, without what has
    arrived of it, as long as no such sum leaves the range on the way. -/
theorem push_takes_away_what_arrived (p : Pusher) (t : Instances) (handles : List Handle)
    (events : List Event) :
    let before := start p t handles
    let after := before.run p events
    (∀ f, f ∈ after.arrived ↔
      ∃ k e, events[k]? = some e ∧ (before.run p (events.take k)).Arrives p e f) ∧
    (∀ f ∈ after.arrived, p.delivery f.metrics = .ok f.delivery ∧
      f.carried.map (·.1) ∈ p.batches handles ∧
      ∀ q ∈ f.carried, ∃ k, (before.run p (events.take k)).agent.get? q.1 = some q.2) ∧
    (∀ handle, (∀ m, t.get? handle = some m → m.kind = .gauge) ∨
        (∀ f ∈ after.arrived, handle ∉ f.carried.map (·.1)) →
      after.agent.get? handle = (polled t events).get? handle) ∧
    ∀ handle name count, t.get? handle = some ⟨name, .counter count⟩ →
      (∀ k ≤ events.length, InRange (count.toInt + increments handle (events.take k) -
        (before.run p (events.take k)).settledFor handle)) →
      after.pending = [] →
      ∃ rest, after.agent.get? handle = some ⟨name, .counter rest⟩ ∧
        rest.toInt = count.toInt + increments handle events - after.arrivedFor handle := by
  intro before after
  refine ⟨?arrived, ?carried, ?spared, ?counter⟩
  case arrived =>
    intro f
    exact mem_arrived_run.trans (or_iff_right List.not_mem_nil)
  case carried =>
    intro f hf
    have hfaithful : after.Faithful p handles fun q =>
        ∃ k, (before.run p (events.take k)).agent.get? q.1 = some q.2 :=
      (faithful_start p t handles _).run fun k _ hq => ⟨k, hq⟩
    exact ⟨(hfaithful.arrived f hf).delivery, (hfaithful.arrived f hf).batch,
      (hfaithful.arrived f hf).seen⟩
  case spared =>
    intro handle hspared
    refine get?_run (fun k q hq heq m hm => ?_) rfl
    subst heq
    -- What is taken away keeps its kind, and at the end its delivery is one of those that have arrived.
    rcases hspared with hgauge | habsent
    · obtain ⟨first, hfirst, -, hkind⟩ := backed_run (fun _ => backed_start) (events.take k)
        (q := (q.1, m)) hm
      exact hkind.trans (hgauge first hfirst)
    · obtain ⟨f, hf, hcarried⟩ := exists_arrived_of_mem_pending k hq
      exact absurd (List.mem_map_of_mem hcarried) (habsent f hf)
  case counter =>
    intro handle name count hget hrange hpending
    have hnone : before.settledFor handle = 0 := rfl
    have hcounts : before.Counts handle name count.toInt := ⟨count, hget, rfl⟩
    have hkind : ∀ k, ∀ q ∈ (before.run p (events.take k)).pending, q.1 = handle →
        q.2.kind = .counter := by
      intro k q hq heq
      obtain ⟨first, hfirst, -, hkind⟩ := backed_of_mem_pending hq
      rw [heq, hget, Option.some_inj] at hfirst
      rw [hkind, ← hfirst]
      rfl
    obtain ⟨rest, hrest, hvalue⟩ := hcounts.run hkind fun k hk => by
      rw [hnone, Int.sub_zero]
      exact hrange k hk
    refine ⟨rest, hrest, hvalue.trans ?_⟩
    have hall : after.settledFor handle = after.arrivedFor handle := by
      rw [settledFor, hpending, carriedFor_nil, Int.sub_zero]
    rw [← hall, hnone, Int.sub_zero]

/-- A counter that is sent twice: it grows while it is copied and while it is on its way, the second
    delivery arrives, and the first one fails. -/
def twiceSent : List Event :=
  [.copy, .poll 0 (.ofNat 3), .send, .copy, .send, .poll 0 (.ofNat 2), .hear 1 (.response 200 ""),
    .settle, .hear 0 (.response 500 "")]

/-- What is left of the five of the counter and the five that were added is two: the delivery that has
    arrived carried eight of them. -/
theorem push_takes_away_what_arrived_twiceSent :
    let before := start Traffic.twoAtATime ⟨#[⟨"a", .counter 5⟩]⟩ [0, 0]
    let after := before.run Traffic.twoAtATime twiceSent
    (∀ k ≤ twiceSent.length, InRange ((5 : Int64).toInt + increments 0 (twiceSent.take k) -
        (before.run Traffic.twoAtATime (twiceSent.take k)).settledFor 0)) ∧
      after.pending = [] ∧ after.cycle.failure.isSome ∧ after.arrivedFor 0 = 8 ∧
      ∃ rest, after.agent.get? 0 = some ⟨"a", .counter rest⟩ ∧ rest.toInt = 2 := by
  intro before after
  have hrange : ∀ k ≤ twiceSent.length, InRange ((5 : Int64).toInt + increments 0 (twiceSent.take k) -
      (before.run Traffic.twoAtATime (twiceSent.take k)).settledFor 0) := by decide +kernel
  have hpending : after.pending = [] :=
    List.length_eq_zero_iff.mp (by decide +kernel)
  have harrived : after.arrivedFor 0 = 8 := by decide +kernel
  have hadded : increments 0 twiceSent = 5 := by decide +kernel
  refine ⟨hrange, hpending, by decide +kernel, harrived, ?_⟩
  obtain ⟨rest, hrest, hvalue⟩ := (push_takes_away_what_arrived Traffic.twoAtATime
    ⟨#[⟨"a", .counter 5⟩]⟩ [0, 0] twiceSent).2.2.2 0 "a" 5 rfl hrange hpending
  refine ⟨rest, hrest, hvalue.trans ?_⟩
  rw [show (run Traffic.twoAtATime before twiceSent).arrivedFor 0 = 8 from harrived, hadded]
  rfl

end Telemetry.Agent.Push
