-- SUMMARY: A push that is run to its end is one of the runs step by step.
import Mathlib
import Telemetry.Proofs.Agent.Settling

/-!
# Schedules

A push run to its end sends as many batches as it may and then waits for the reply that its endpoint gives
next, to whichever of them. These are some orders of steps among others: a batch is copied and sent without a
break, and what has arrived is taken away without a break. Polls happen while a reply is waited for.
-/

namespace Telemetry.Agent

-- ---------------------------------------------------------------------------
-- Batches
-- ---------------------------------------------------------------------------

namespace Pusher

theorem flatten_pieces {α : Type} (length : Nat) (hpos : 0 < length) (xs : List α) :
    (pieces length hpos xs).flatten = xs := by
  fun_induction pieces length hpos xs with
  | case1 => rfl
  | case2 xs _ ih => rw [List.flatten_cons, ih, List.take_append_drop]

/-- The batches are, one after the other, what is pushed. -/
theorem flatten_batches {α : Type} (p : Pusher) (xs : List α) : (p.batches xs).flatten = xs :=
  flatten_pieces _ _ xs

end Pusher

namespace Push

variable {p : Pusher} {w : Push}

theorem run_append (p : Pusher) (w : Push) (xs ys : List Event) :
    w.run p (xs ++ ys) = (w.run p xs).run p ys := by
  unfold run
  exact List.foldl_append

-- ---------------------------------------------------------------------------
-- Sending without a break
-- ---------------------------------------------------------------------------

theorem run_copies (hlaunch : w.cycle.canLaunch p) (hpending : w.pending = []) {handles : List Handle}
    {metrics : List Metric} (hrest : w.batch.drop w.copies.length = handles)
    (hmetrics : handles.map w.agent.get? = metrics.map some) :
    w.run p (.replicate metrics.length .copy) = { w with copies := w.copies ++ metrics } := by
  induction metrics generalizing w handles with
  | nil => simp [run]
  | cons m metrics ih =>
    cases handles with
    | nil => cases hmetrics
    | cons handle handles =>
      rw [List.map_cons, List.map_cons, List.cons.injEq] at hmetrics
      have hnext : w.batch[w.copies.length]? = some handle := by
        rw [← List.head?_drop, hrest]
        rfl
      have hcopy : w.step p .copy = { w with copies := w.copies ++ [m] } := by
        simp [step, copy, hnext, hmetrics.1, hlaunch, hpending]
      have hdrop : w.batch.drop (w.copies ++ [m]).length = handles := by
        rw [List.length_append, List.length_singleton, ← List.drop_drop, hrest]
        rfl
      have hagain := ih (w := { w with copies := w.copies ++ [m] }) hlaunch hpending hdrop hmetrics.2
      rw [List.length_cons, List.replicate_succ]
      change (w.step p .copy).run p _ = _
      rw [hcopy, hagain, List.append_assoc, List.singleton_append]

/-- What a launch carries are the metrics of its batch. -/
theorem zip_eq_carried {t : Instances} {handles : List Handle} {metrics : List Metric}
    (h : handles.map t.get? = metrics.map some) :
    handles.zip metrics = handles.filterMap fun handle => (t.get? handle).map fun m => (handle, m) := by
  induction handles generalizing metrics with
  | nil => rfl
  | cons handle handles ih =>
    cases metrics with
    | nil => cases h
    | cons m metrics =>
      rw [List.map_cons, List.map_cons, List.cons.injEq] at h
      rw [List.zip_cons_cons, ih h.2, List.filterMap_cons, h.1]
      rfl

theorem exists_metrics {t : Instances} {handles : List Handle} (h : ∀ handle ∈ handles, handle < t.size) :
    ∃ metrics : List Metric, handles.map t.get? = metrics.map some := by
  induction handles with
  | nil => exact ⟨[], rfl⟩
  | cons handle handles ih =>
    obtain ⟨metrics, hmetrics⟩ := ih fun other hother => h other (List.mem_cons_of_mem _ hother)
    cases hget : t.get? handle with
    | none =>
      exact absurd (h handle List.mem_cons_self) (Nat.not_lt.mpr (Instances.get?_eq_none_iff.mp hget))
    | some m => exact ⟨m :: metrics, by rw [List.map_cons, List.map_cons, hget, hmetrics]⟩

/-- Copying a batch and sending it at once is a launch. -/
theorem exists_run_launch (hcopies : w.copies = []) (hpending : w.pending = [])
    (hlaunch : w.cycle.canLaunch p) (hbatch : ∀ handle ∈ w.batch, handle < w.agent.size) :
    ∃ events, w.run p events = { w with cycle := w.cycle.launch p w.agent } := by
  obtain ⟨metrics, hmetrics⟩ := exists_metrics hbatch
  have hlength : metrics.length = w.batch.length := by
    have := congrArg List.length hmetrics
    rwa [List.length_map, List.length_map, eq_comm] at this
  have hcopied := run_copies hlaunch hpending (by rw [hcopies, List.length_nil, List.drop_zero]) hmetrics
  refine ⟨.replicate metrics.length .copy ++ [.send], ?_⟩
  rw [run_append, hcopied, hcopies, List.nil_append]
  change ({ w with copies := metrics } : Push).send p = _
  have hdispatch : w.cycle.dispatch p (w.batch.zip metrics) = w.cycle.launch p w.agent := by
    obtain ⟨first, rest, hcons⟩ : ∃ first rest, w.cycle.waiting = first :: rest := by
      refine List.exists_cons_of_ne_nil ?_
      rintro hnil
      simp [Cycle.canLaunch, hnil] at hlaunch
    have hfirst : w.batch = first := by rw [batch, hcons, List.headD_cons]
    rw [zip_eq_carried hmetrics, hfirst]
    cases hdelivery : p.delivery ((first.filterMap fun handle =>
      (w.agent.get? handle).map fun m => (handle, m)).map (·.2)) with
    | ok delivery => simp only [Cycle.dispatch, Cycle.launch, hcons, hdelivery, List.tail_cons]
    | error e => simp only [Cycle.dispatch, Cycle.launch, hcons, hdelivery]
  have hready : w.cycle.canLaunch p && w.pending.isEmpty && metrics.length = w.batch.length := by
    simp [hlaunch, hpending, hlength]
  refine (if_pos hready).trans ?_
  rw [← hdispatch]
  rfl

-- ---------------------------------------------------------------------------
-- Hearing without a break
-- ---------------------------------------------------------------------------

theorem run_settles (w : Push) {pending : List (Handle × Metric)} (hpending : w.pending = pending) :
    w.run p (.replicate pending.length .settle) =
      { w with agent := Cycle.settle pending w.agent, pending := [] } := by
  induction pending generalizing w with
  | nil =>
    obtain ⟨agent, cycle, copies, _, arrived⟩ := w
    obtain rfl := hpending
    rfl
  | cons q pending ih =>
    rw [List.length_cons, List.replicate_succ]
    change (w.step p .settle).run p _ = _
    rw [step, settle, hpending]
    exact ih _ rfl

/-- Hearing of a delivery and taking away at once what has arrived is what a cycle does with a reply. -/
theorem exists_run_receive (hcopies : w.copies = []) (hpending : w.pending = []) (n : Nat)
    (reply : Reply) :
    ∃ events arrived, w.run p events =
      { w with
        cycle := (w.cycle.receive p n reply w.agent).1
        agent := (w.cycle.receive p n reply w.agent).2
        arrived } := by
  have hwaiting : w.isWaiting = true := by simp [isWaiting, hcopies, hpending]
  cases hflight : w.cycle.flights[n]? with
  | none => exact ⟨[], w.arrived, by simp [run, Cycle.receive, hflight]⟩
  | some flight =>
    cases hverdict : reply.verdict p.patience with
    | ok _ =>
      refine ⟨.hear n reply :: .replicate flight.carried.length .settle, w.arrived ++ [flight], ?_⟩
      change (w.hear p n reply).run p _ = _
      simp only [hear, hwaiting, hflight, hverdict, if_true, Cycle.receive_of_ok hflight hverdict]
      rw [run_settles _ rfl]
      simp only [hpending]
    | error e =>
      obtain ⟨e', hreceive⟩ := Cycle.receive_of_error hflight hverdict w.agent
      refine ⟨[.hear n reply], w.arrived, ?_⟩
      change w.hear p n reply = _
      simp only [hear, hwaiting, hflight, hverdict, if_true, hreceive]

-- ---------------------------------------------------------------------------
-- Whole pushes
-- ---------------------------------------------------------------------------

theorem run_polls (w : Push) (polls : List (Handle × Binary64)) :
    w.run p (polls.map fun q => .poll q.1 q.2) =
      { w with agent := polled w.agent (polls.map fun q => .poll q.1 q.2) } := by
  induction polls generalizing w with
  | nil => rfl
  | cons q polls ih => exact ih (w.step p (.poll q.1 q.2))

theorem size_polled (t : Instances) (events : List Event) : (polled t events).size = t.size := by
  induction events generalizing t with
  | nil => rfl
  | cons e events ih =>
    refine (ih _).trans ?_
    cases e with
    | poll handle x => exact Instances.size_update t handle _
    | copy => rfl
    | send => rfl
    | hear n reply => rfl
    | settle => rfl
    | cancel => rfl

theorem size_settle (carried : List (Handle × Metric)) (t : Instances) :
    (Cycle.settle carried t).size = t.size := by
  induction carried generalizing t with
  | nil => rfl
  | cons q carried ih => exact (ih _).trans (Instances.size_update t q.1 _)

/-- What a push has come to when nothing is left to do. -/
def outcome (w : Push) : Outcome Unit :=
  match w.cycle.failure with
  | some e => .error e
  | none => .ok ()

/-- Every batch that waits is made of instances that there are. -/
def Covered (c : Cycle) (t : Instances) : Prop :=
  ∀ batch ∈ c.waiting, ∀ handle ∈ batch, handle < t.size

theorem covered_launch {c : Cycle} {t : Instances} (h : Covered c t) (hlaunch : c.canLaunch p) :
    Covered (c.launch p t) t := by
  obtain ⟨flight, -, hlaunched⟩ | ⟨e, hfailed⟩ := Cycle.launch_cases hlaunch t
  · rw [hlaunched]
    exact fun batch hbatch => h batch (List.mem_of_mem_tail hbatch)
  · rw [hfailed]
    exact fun batch hbatch => nomatch hbatch

theorem covered_receive {c : Cycle} {t : Instances} (h : Covered c t) (n : Nat) (reply : Reply) :
    Covered (c.receive p n reply t).1 (c.receive p n reply t).2 := by
  unfold Cycle.receive
  split
  · exact h
  · dsimp only
    split
    · intro batch hbatch handle hhandle
      rw [size_settle]
      exact h batch hbatch handle hhandle
    · exact fun batch hbatch => nomatch hbatch

/-- If instances change by polls alone while a reply is waited for, what a cycle comes to when it is run to
    its end is what some run step by step comes to, in whatever order its deliveries are answered. -/
theorem exists_run_eq {σ : Type} {endpoint : Endpoint σ}
    (hpolls : ∀ delivery t s, ∃ polls : List (Handle × Binary64),
      (endpoint.answer delivery (t, s)).2.1 = polled t (polls.map fun q => .poll q.1 q.2))
    (c : Cycle) (t : Instances) (s : σ) (hcovered : Covered c t) (w : Push) (hcycle : w.cycle = c)
    (hagent : w.agent = t) (hcopies : w.copies = []) (hpending : w.pending = []) :
    ∃ events s', (w.run p events).copies = [] ∧ (w.run p events).pending = [] ∧
      c.run p endpoint t s = ((w.run p events).outcome, (w.run p events).agent, s') := by
  fun_induction Cycle.run p endpoint c t s generalizing w with
  | case1 c t s e hfailure =>
    refine ⟨[], s, hcopies, hpending, ?_⟩
    simp only [run, List.foldl_nil, outcome, hcycle, hfailure, hagent]
  | case2 c t s hfailure hlaunch ih =>
    obtain ⟨events, hrun⟩ : ∃ events,
        w.run p events = { w with cycle := w.cycle.launch p w.agent } := by
      refine exists_run_launch hcopies hpending (hcycle ▸ hlaunch) fun handle hhandle => ?_
      rw [hagent]
      refine hcovered w.batch ?_ handle hhandle
      rw [batch, hcycle]
      cases hwaiting : c.waiting with
      | nil => simp [Cycle.canLaunch, hwaiting] at hlaunch
      | cons first rest => exact List.mem_cons_self
    obtain ⟨later, s', hlater⟩ := ih (covered_launch hcovered hlaunch) (w.run p events)
      (by rw [hrun, hcycle, hagent]) (by rw [hrun, hagent]) (by rw [hrun, hcopies])
      (by rw [hrun, hpending])
    exact ⟨events ++ later, s', by rwa [run_append]⟩
  | case3 c t s hfailure hlaunch hflights =>
    refine ⟨[], s, hcopies, hpending, ?_⟩
    simp only [run, List.foldl_nil, outcome, hcycle, hfailure, hagent]
  | case4 c t s hfailure hlaunch first others hflights n reply t' s' hanswer next ih =>
    -- What happens to the instances before the reply comes are events ahead of it.
    obtain ⟨polls, hafter⟩ := hpolls (first :: others)[n].delivery t s
    rw [hanswer] at hafter
    have hpolled : w.run p (polls.map fun q => .poll q.1 q.2) = { w with agent := t' } := by
      rw [run_polls, hagent, ← hafter]
    obtain ⟨events, arrived, hrun⟩ := exists_run_receive (p := p)
      (w := { w with agent := t' }) hcopies hpending n reply
    have hcovered' : Covered c t' := by
      intro batch hbatch handle hhandle
      rw [show t' = polled t _ from hafter, size_polled]
      exact hcovered batch hbatch handle hhandle
    obtain ⟨later, s'', hlater⟩ := ih (covered_receive hcovered' n reply)
      ((w.run p (polls.map fun q => .poll q.1 q.2)).run p events)
      (by rw [hpolled, hrun, hcycle]) (by rw [hpolled, hrun, hcycle]) (by rw [hpolled, hrun, hcopies])
      (by rw [hpolled, hrun, hpending])
    refine ⟨polls.map (fun q => .poll q.1 q.2) ++ events ++ later, s'', ?_⟩
    rwa [run_append, run_append]

/-- A push is one of the runs step by step of the push of its instances, at whose end nothing is left to be
    taken away. -/
theorem push_eq_run {σ : Type} {endpoint : Endpoint σ}
    (hpolls : ∀ delivery t s, ∃ polls : List (Handle × Binary64),
      (endpoint.answer delivery (t, s)).2.1 = polled t (polls.map fun q => .poll q.1 q.2))
    {handles : List Handle} {t : Instances} (hhandles : ∀ handle ∈ handles, handle < t.size) (s : σ) :
    ∃ events s', ((start p t handles).run p events).pending = [] ∧
      p.push endpoint false handles t s =
        (((start p t handles).run p events).outcome, ((start p t handles).run p events).agent, s') := by
  have hcovered : Covered (.start p handles) t := by
    intro batch hbatch handle hhandle
    refine hhandles handle ?_
    rw [← p.flatten_batches handles]
    exact List.mem_flatten.mpr ⟨batch, hbatch, hhandle⟩
  obtain ⟨events, s', -, hpending, hrun⟩ := exists_run_eq hpolls (.start p handles) t s hcovered
    (start p t handles) rfl rfl rfl rfl
  exact ⟨events, s', hpending, hrun⟩

end Push

end Telemetry.Agent
