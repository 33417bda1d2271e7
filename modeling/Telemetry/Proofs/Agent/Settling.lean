-- SUMMARY: One push step by step, with polls at any moment: what is copied, sent, heard of and taken away.
import Mathlib
import Telemetry.Proofs.Agent.Balance

/-!
# Settling

A push copies the metrics of a batch one by one, sends the copies, and when it hears that they have
arrived, takes them away from the instances one by one. Polls may come between any two of these steps.
While a batch is copied or taken away the push does nothing else; a failure can only be heard of in
between, and so can the end of patience of whoever waits for the push.
-/

namespace Telemetry.Agent

/-- Send a batch whose metrics were copied. -/
def Cycle.dispatch (p : Pusher) (carried : List (Handle × Metric)) (c : Cycle) : Cycle :=
  match p.delivery (carried.map (·.2)) with
  | .ok delivery =>
    { c with waiting := c.waiting.tail, flights := c.flights ++ [⟨delivery, carried⟩] }
  | .error e => failed e

/-- A push on its way, and the instances that it shares with others. -/
structure Push where
  agent : Instances
  cycle : Cycle
  /-- Copies of the first metrics of the batch that is sent next. -/
  copies : List Metric
  /-- What is still to be taken away of the delivery that has arrived last. -/
  pending : List (Handle × Metric)
  /-- The deliveries whose arrival was heard of. -/
  arrived : List Flight

namespace Push

inductive Event where
  /-- An instance is set from a number. -/
  | poll (h : Handle) (x : Binary64)
  /-- Copy the next metric of the batch that is sent next. -/
  | copy
  /-- Send the copies. -/
  | send
  /-- The reply to a delivery comes. -/
  | hear (n : Nat) (reply : Reply)
  /-- Take the next of what has arrived away from its instance. -/
  | settle
  /-- Nobody waits for the push any more. -/
  | cancel

/-- The push of a list of instances before any step. -/
def start (p : Pusher) (t : Instances) (handles : List Handle) : Push :=
  ⟨t, .start p handles, [], [], []⟩

-- ---------------------------------------------------------------------------
-- Steps
-- ---------------------------------------------------------------------------

/-- The batch that is sent next. -/
def batch (w : Push) : List Handle :=
  w.cycle.waiting.headD []

/-- The copies with the instances that they were made of. -/
def drafted (w : Push) : List (Handle × Metric) :=
  w.batch.zip w.copies

/-- The push waits: no batch is being copied or taken away. -/
def isWaiting (w : Push) : Bool :=
  w.copies.isEmpty && w.pending.isEmpty

def copy (p : Pusher) (w : Push) : Push :=
  match w.batch[w.copies.length]?.bind w.agent.get? with
  | some m =>
    if w.cycle.canLaunch p && w.pending.isEmpty then { w with copies := w.copies ++ [m] } else w
  | none => w

def send (p : Pusher) (w : Push) : Push :=
  if w.cycle.canLaunch p && w.pending.isEmpty && w.copies.length = w.batch.length then
    { w with cycle := w.cycle.dispatch p w.drafted, copies := [] }
  else w

def hear (p : Pusher) (n : Nat) (reply : Reply) (w : Push) : Push :=
  if w.isWaiting then
    let cycle := (w.cycle.receive p n reply w.agent).1
    match w.cycle.flights[n]?, reply.verdict p.patience with
    | some flight, .ok () =>
      { w with cycle, pending := flight.carried, arrived := w.arrived ++ [flight] }
    | _, _ => { w with cycle }
  else w

def settle (w : Push) : Push :=
  match w.pending with
  | q :: pending => { w with agent := w.agent.update q.1 (Value.settle q.2.value), pending }
  | [] => w

def cancel (w : Push) : Push :=
  if w.isWaiting then { w with cycle := .failed Cause.cancelled.toError } else w

/-- What is left after an event. An event that cannot happen changes nothing. -/
def step (p : Pusher) (w : Push) : Event → Push
  | .poll h x => { w with agent := w.agent.update h (Value.set x) }
  | .copy => w.copy p
  | .send => w.send p
  | .hear n reply => w.hear p n reply
  | .settle => w.settle
  | .cancel => w.cancel

def run (p : Pusher) (w : Push) (events : List Event) : Push :=
  events.foldl (step p) w

-- ---------------------------------------------------------------------------
-- Amounts of one instance
-- ---------------------------------------------------------------------------

/-- What is carried for an instance, all together. -/
def carriedFor (h : Handle) (carried : List (Handle × Metric)) : Int :=
  exactSum ((carried.filter fun q => q.1 = h).map fun q => q.2.value.integer)

@[simp] theorem carriedFor_nil (h : Handle) : carriedFor h [] = 0 := rfl

@[simp] theorem carriedFor_cons (h : Handle) (q : Handle × Metric) (carried : List (Handle × Metric)) :
    carriedFor h (q :: carried) =
      (if q.1 = h then q.2.value.integer.toInt else 0) + carriedFor h carried := by
  unfold carriedFor
  rw [List.filter_cons]
  split
  · rename_i hq
    simp [of_decide_eq_true hq]
  · rename_i hq
    simp [of_decide_eq_false (Bool.eq_false_of_not_eq_true hq)]

@[simp] theorem carriedFor_append (h : Handle) (xs ys : List (Handle × Metric)) :
    carriedFor h (xs ++ ys) = carriedFor h xs + carriedFor h ys := by
  simp [carriedFor]

/-- What the deliveries that have arrived carried for an instance. -/
def arrivedFor (w : Push) (h : Handle) : Int :=
  carriedFor h (w.arrived.flatMap (·.carried))

/-- What has been taken away from an instance so far. -/
def settledFor (w : Push) (h : Handle) : Int :=
  w.arrivedFor h - carriedFor h w.pending

/-- What an event adds to an instance that is a counter. -/
def increment (h : Handle) : Event → Int
  | .poll other x => if other = h then x.toInt64.toInt else 0
  | _ => 0

/-- What events add to an instance that is a counter, all together. -/
def increments (h : Handle) (events : List Event) : Int :=
  (events.map (increment h)).sum

/-- The instances if nothing but the polls had happened. -/
def polled (t : Instances) (events : List Event) : Instances :=
  events.foldl (fun t e =>
    match e with
    | .poll h x => t.update h (Value.set x)
    | _ => t) t

-- ---------------------------------------------------------------------------
-- What a step can do
-- ---------------------------------------------------------------------------

variable {p : Pusher} {w : Push}

theorem copy_cases (p : Pusher) (w : Push) :
    w.copy p = w ∨ ∃ h m, w.batch[w.copies.length]? = some h ∧ w.agent.get? h = some m ∧
      w.copy p = { w with copies := w.copies ++ [m] } := by
  unfold copy
  split
  · rename_i m hm
    obtain ⟨h, hh, hget⟩ := Option.bind_eq_some_iff.mp hm
    split
    · exact .inr ⟨h, m, hh, hget, rfl⟩
    · exact .inl rfl
  · exact .inl rfl

theorem send_cases (p : Pusher) (w : Push) :
    w.send p = w ∨ w.copies.length = w.batch.length ∧ w.cycle.waiting ≠ [] ∧
      ((∃ delivery, p.delivery (w.drafted.map (·.2)) = .ok delivery ∧
        w.send p = { w with
          cycle := { w.cycle with
            waiting := w.cycle.waiting.tail
            flights := w.cycle.flights ++ [⟨delivery, w.drafted⟩] }
          copies := [] }) ∨
        ∃ e, w.send p = { w with cycle := .failed e, copies := [] }) := by
  unfold send Cycle.dispatch
  split
  · rename_i h
    simp only [Cycle.canLaunch, Bool.and_eq_true, decide_eq_true_eq] at h
    refine .inr ⟨h.2, by simpa using h.1.1.1, ?_⟩
    split
    · rename_i delivery hdelivery
      exact .inl ⟨delivery, hdelivery, rfl⟩
    · rename_i e _
      exact .inr ⟨e, rfl⟩
  · exact .inl rfl

theorem hear_cases (p : Pusher) (n : Nat) (reply : Reply) (w : Push) :
    w.hear p n reply = w ∨ w.copies = [] ∧ w.pending = [] ∧
      ∃ flight, w.cycle.flights[n]? = some flight ∧
        (reply.verdict p.patience = .ok () ∧ w.hear p n reply = { w with
            cycle := { w.cycle with flights := w.cycle.flights.eraseIdx n }
            pending := flight.carried
            arrived := w.arrived ++ [flight] } ∨
          ∃ e, w.hear p n reply = { w with cycle := .failed e }) := by
  unfold hear
  split
  · rename_i hwaiting
    simp only [isWaiting, Bool.and_eq_true, List.isEmpty_iff] at hwaiting
    cases hflight : w.cycle.flights[n]? with
    | none =>
      refine .inl ?_
      simp [Cycle.receive, hflight]
    | some flight =>
      refine .inr ⟨hwaiting.1, hwaiting.2, flight, rfl, ?_⟩
      cases hverdict : reply.verdict p.patience with
      | ok _ => exact .inl ⟨rfl, by simp [Cycle.receive_of_ok hflight hverdict]⟩
      | error e =>
        obtain ⟨e', hreceive⟩ := Cycle.receive_of_error hflight hverdict w.agent
        exact .inr ⟨e', by simp [hreceive]⟩
  · exact .inl rfl

theorem settle_cases (w : Push) :
    w.settle = w ∨ ∃ q pending, w.pending = q :: pending ∧
      w.settle = { w with agent := w.agent.update q.1 (Value.settle q.2.value), pending } := by
  unfold settle
  split
  · rename_i q pending hpending
    exact .inr ⟨q, pending, hpending, rfl⟩
  · exact .inl rfl

theorem cancel_cases (w : Push) :
    w.cancel = w ∨ w.copies = [] ∧ ∃ e, w.cancel = { w with cycle := .failed e } := by
  unfold cancel
  split
  · rename_i hwaiting
    simp only [isWaiting, Bool.and_eq_true, List.isEmpty_iff] at hwaiting
    exact .inr ⟨hwaiting.1, _, rfl⟩
  · exact .inl rfl

/-! ## Steps that touch no instance -/

/-- The instances and what has been taken away from them are the same as before. -/
structure Spares (w w' : Push) : Prop where
  agent : w'.agent = w.agent
  settledFor : ∀ h, w'.settledFor h = w.settledFor h

theorem Spares.refl (w : Push) : w.Spares w :=
  ⟨rfl, fun _ => rfl⟩

theorem spares_copy (p : Pusher) (w : Push) : w.Spares (w.copy p) := by
  obtain hsame | ⟨h, m, -, -, hcopy⟩ := copy_cases p w
  · rw [hsame]
    exact .refl w
  · rw [hcopy]
    exact ⟨rfl, fun _ => rfl⟩

theorem spares_send (p : Pusher) (w : Push) : w.Spares (w.send p) := by
  obtain hsame | ⟨-, -, ⟨delivery, -, hsend⟩ | ⟨e, hsend⟩⟩ := send_cases p w
  · rw [hsame]
    exact .refl w
  · rw [hsend]
    exact ⟨rfl, fun _ => rfl⟩
  · rw [hsend]
    exact ⟨rfl, fun _ => rfl⟩

/-- Nothing has been taken away yet of a delivery whose arrival has just been heard of. -/
theorem spares_hear (p : Pusher) (n : Nat) (reply : Reply) (w : Push) :
    w.Spares (w.hear p n reply) := by
  obtain hsame | ⟨-, hpending, flight, -, ⟨-, hhear⟩ | ⟨e, hhear⟩⟩ := hear_cases p n reply w
  · rw [hsame]
    exact .refl w
  · rw [hhear]
    refine ⟨rfl, fun h => ?_⟩
    simp [Push.settledFor, arrivedFor, hpending]
  · rw [hhear]
    exact ⟨rfl, fun _ => rfl⟩

theorem spares_cancel (w : Push) : w.Spares w.cancel := by
  obtain hsame | ⟨-, e, hcancel⟩ := cancel_cases w
  · rw [hsame]
    exact .refl w
  · rw [hcancel]
    exact ⟨rfl, fun _ => rfl⟩

/-! ## Arrivals -/

/-- With the event a delivery is heard of that has arrived. -/
def Arrives (p : Pusher) (w : Push) (e : Event) (f : Flight) : Prop :=
  ∃ n reply, e = .hear n reply ∧ w.isWaiting = true ∧ w.cycle.flights[n]? = some f ∧
    reply.verdict p.patience = .ok ()

theorem arrived_copy (p : Pusher) (w : Push) : (w.copy p).arrived = w.arrived := by
  obtain hsame | ⟨h, m, -, -, hcopy⟩ := copy_cases p w
  · rw [hsame]
  · rw [hcopy]

theorem arrived_send (p : Pusher) (w : Push) : (w.send p).arrived = w.arrived := by
  obtain hsame | ⟨-, -, ⟨delivery, -, hsend⟩ | ⟨e, hsend⟩⟩ := send_cases p w
  · rw [hsame]
  · rw [hsend]
  · rw [hsend]

theorem arrived_settle (w : Push) : w.settle.arrived = w.arrived := by
  obtain hsame | ⟨q, pending, -, hsettle⟩ := settle_cases w
  · rw [hsame]
  · rw [hsettle]

theorem arrived_cancel (w : Push) : w.cancel.arrived = w.arrived := by
  obtain hsame | ⟨-, e, hcancel⟩ := cancel_cases w
  · rw [hsame]
  · rw [hcancel]

theorem mem_arrived_hear {n : Nat} {reply : Reply} {f : Flight} :
    f ∈ (w.hear p n reply).arrived ↔ f ∈ w.arrived ∨ w.Arrives p (.hear n reply) f := by
  have harrives : w.Arrives p (.hear n reply) f ↔ w.isWaiting = true ∧
      w.cycle.flights[n]? = some f ∧ reply.verdict p.patience = .ok () := by
    constructor
    · rintro ⟨_, _, heq, harrives⟩
      cases heq
      exact harrives
    · exact fun harrives => ⟨n, reply, rfl, harrives⟩
  rw [harrives]
  unfold hear
  split
  · rename_i hwaiting
    split
    · rename_i flight hflight hverdict
      simp [hwaiting, hflight, hverdict, eq_comm]
    · rename_i hnone
      refine ⟨.inl, ?_⟩
      rintro (hmem | ⟨-, hflight, hverdict⟩)
      · exact hmem
      · exact (hnone f hflight hverdict).elim
  · rename_i hbusy
    simp [hbusy]

/-- Deliveries that have arrived stay so, and others join them only when a reply says so. -/
theorem mem_arrived_step {e : Event} {f : Flight} :
    f ∈ (w.step p e).arrived ↔ f ∈ w.arrived ∨ w.Arrives p e f := by
  have hother : (w.step p e).arrived = w.arrived → (∀ n reply, e ≠ .hear n reply) →
      (f ∈ (w.step p e).arrived ↔ f ∈ w.arrived ∨ w.Arrives p e f) := by
    intro hsame hne
    rw [hsame, or_iff_left]
    rintro ⟨n, reply, heq, -⟩
    exact hne n reply heq
  cases e with
  | poll h x => exact hother rfl (fun _ _ => (nomatch ·))
  | copy => exact hother (arrived_copy p w) (fun _ _ => (nomatch ·))
  | send => exact hother (arrived_send p w) (fun _ _ => (nomatch ·))
  | hear n reply => exact mem_arrived_hear
  | settle => exact hother (arrived_settle w) (fun _ _ => (nomatch ·))
  | cancel => exact hother (arrived_cancel w) (fun _ _ => (nomatch ·))

theorem mem_arrived_run {events : List Event} {f : Flight} :
    f ∈ (w.run p events).arrived ↔ f ∈ w.arrived ∨
      ∃ k e, events[k]? = some e ∧ (w.run p (events.take k)).Arrives p e f := by
  induction events generalizing w with
  | nil => simp [run]
  | cons e events ih =>
    have hrun : w.run p (e :: events) = (w.step p e).run p events := rfl
    rw [hrun, ih, mem_arrived_step, or_assoc]
    refine or_congr_right ⟨?_, ?_⟩
    · rintro (harrives | ⟨k, e', he', harrives⟩)
      · exact ⟨0, e, rfl, harrives⟩
      · exact ⟨k + 1, e', he', harrives⟩
    · rintro ⟨k, e', he', harrives⟩
      cases k with
      | zero =>
        cases he'
        exact .inl harrives
      | succ k => exact .inr ⟨k, e', he', harrives⟩

theorem arrived_subset_run (p : Pusher) (w : Push) (events : List Event) :
    w.arrived ⊆ (w.run p events).arrived :=
  fun _ hf => mem_arrived_run.mpr (.inl hf)

/-! ## Names and kinds -/

/-- An instance keeps its name and its kind through every step. -/
theorem backed_step {t : Instances} (h : ∀ q : Handle × Metric, w.agent.get? q.1 = some q.2 → Backed t q)
    (e : Event) {q : Handle × Metric} (hq : (w.step p e).agent.get? q.1 = some q.2) : Backed t q := by
  have hupdate : ∀ {other : Handle} {f : Value → Value}, (∀ v, (f v).kind = v.kind) →
      (w.agent.update other f).get? q.1 = some q.2 → Backed t q := by
    intro other f hf hq
    rw [Instances.get?_update] at hq
    split at hq
    · obtain ⟨before, hbefore, hafter⟩ := Option.map_eq_some_iff.mp hq
      obtain ⟨first, hfirst, hname, hkind⟩ := h (q.1, before) hbefore
      refine ⟨first, hfirst, ?_, ?_⟩
      · rw [← hafter]
        exact hname
      · rw [← hafter]
        exact (hf before.value).trans hkind
    · exact h q hq
  cases e with
  | poll other x => exact hupdate (Value.kind_set x) hq
  | copy => exact h q ((spares_copy p w).agent ▸ hq)
  | send => exact h q ((spares_send p w).agent ▸ hq)
  | hear n reply => exact h q ((spares_hear p n reply w).agent ▸ hq)
  | settle =>
    obtain hsame | ⟨settled, pending, -, hsettle⟩ := settle_cases w
    · exact h q (by rwa [step, hsame] at hq)
    · exact hupdate (Value.kind_settle settled.2.value) (by rwa [step, hsettle] at hq)
  | cancel => exact h q ((spares_cancel w).agent ▸ hq)

theorem backed_run {t : Instances} (h : ∀ q : Handle × Metric, w.agent.get? q.1 = some q.2 → Backed t q)
    (events : List Event) {q : Handle × Metric} (hq : (w.run p events).agent.get? q.1 = some q.2) :
    Backed t q := by
  induction events generalizing w with
  | nil => exact h q hq
  | cons e events ih => exact ih (fun _ => backed_step h e) hq

/-! ## What deliveries carry -/

theorem drafted_of_copies_eq_nil (h : w.copies = []) : w.drafted = [] := by
  rw [drafted, h, List.zip_nil_right]

variable {handles : List Handle} {Seen : Handle × Metric → Prop}

/-- The delivery is made of what it carries, which is a batch of the push, each metric as it was seen. -/
structure Carries (p : Pusher) (handles : List Handle) (Seen : Handle × Metric → Prop) (f : Flight) :
    Prop where
  delivery : p.delivery f.metrics = .ok f.delivery
  batch : f.carried.map (·.1) ∈ p.batches handles
  seen : ∀ q ∈ f.carried, Seen q

/-- Every delivery is made of a batch as it was seen, and what is still to be taken away is part of one that
    has arrived. -/
structure Faithful (p : Pusher) (handles : List Handle) (Seen : Handle × Metric → Prop) (w : Push) :
    Prop where
  waiting : ∀ batch ∈ w.cycle.waiting, batch ∈ p.batches handles
  drafted : ∀ q ∈ w.drafted, Seen q
  flights : ∀ f ∈ w.cycle.flights, Carries p handles Seen f
  arrived : ∀ f ∈ w.arrived, Carries p handles Seen f
  pending : ∀ q ∈ w.pending, ∃ f ∈ w.arrived, q ∈ f.carried

theorem faithful_start (p : Pusher) (t : Instances) (handles : List Handle)
    (Seen : Handle × Metric → Prop) : (start p t handles).Faithful p handles Seen where
  waiting := fun _ h => h
  drafted := by simp [start, drafted]
  flights := by simp [start, Cycle.start]
  arrived := by simp [start]
  pending := by simp [start]

/-- A push that has failed has nothing on its way. What has arrived before stays. -/
theorem Faithful.fail (h : w.Faithful p handles Seen) (e : Error) (copies : List Metric) :
    ({ w with cycle := .failed e, copies } : Push).Faithful p handles Seen where
  waiting := by simp [Cycle.failed]
  drafted := by simp [Push.drafted, Push.batch, Cycle.failed]
  flights := by simp [Cycle.failed]
  arrived := h.arrived
  pending := h.pending

theorem Faithful.copy (h : w.Faithful p handles Seen)
    (hseen : ∀ q, w.agent.get? q.1 = some q.2 → Seen q) : (w.copy p).Faithful p handles Seen := by
  obtain hsame | ⟨handle, m, hhandle, hm, hcopy⟩ := copy_cases p w
  · rw [hsame]
    exact h
  · rw [hcopy]
    refine ⟨h.waiting, ?_, h.flights, h.arrived, h.pending⟩
    intro q hq
    obtain ⟨i, hi⟩ := List.mem_iff_getElem?.mp hq
    obtain ⟨hfirst, hsecond⟩ := List.getElem?_zip_eq_some.mp hi
    -- The pair was drafted before, or it is that of the new copy.
    rcases Nat.lt_or_ge i w.copies.length with hlt | hge
    · rw [List.getElem?_append_left hlt] at hsecond
      exact h.drafted q (List.mem_of_getElem? (List.getElem?_zip_eq_some.mpr ⟨hfirst, hsecond⟩))
    · obtain ⟨hlast, rfl⟩ : i = w.copies.length ∧ m = q.2 := by
        rw [List.getElem?_append_right hge] at hsecond
        obtain ⟨hzero, hm'⟩ := List.getElem?_eq_some_iff.mp hsecond
        have hi : i = w.copies.length := by
          rw [List.length_singleton] at hzero
          omega
        exact ⟨hi, by simpa using hm'⟩
      rw [hlast] at hfirst
      obtain rfl : handle = q.1 := Option.some_inj.mp (hhandle.symm.trans hfirst)
      exact hseen q hm

theorem Faithful.send (h : w.Faithful p handles Seen) : (w.send p).Faithful p handles Seen := by
  obtain hsame | ⟨hlength, hwaiting, ⟨delivery, hdelivery, hsend⟩ | ⟨e, hsend⟩⟩ := send_cases p w
  · rw [hsame]
    exact h
  · rw [hsend]
    refine ⟨?waiting, by simp [drafted_of_copies_eq_nil], ?flights, h.arrived, h.pending⟩
    case waiting => exact fun batch hbatch => h.waiting batch (List.mem_of_mem_tail hbatch)
    case flights =>
      intro f hf
      rcases List.mem_append.mp hf with hf | hf
      · exact h.flights f hf
      · obtain rfl := List.mem_singleton.mp hf
        have hbatch : w.batch ∈ w.cycle.waiting := by
          obtain ⟨first, rest, hcons⟩ := List.exists_cons_of_ne_nil hwaiting
          simp [batch, hcons]
        refine ⟨hdelivery, ?_, h.drafted⟩
        have hfirsts : w.drafted.map (·.1) = w.batch := List.map_fst_zip (Nat.le_of_eq hlength.symm)
        exact hfirsts ▸ h.waiting _ hbatch
  · rw [hsend]
    exact h.fail e []

theorem Faithful.hear (h : w.Faithful p handles Seen) (n : Nat) (reply : Reply) :
    (w.hear p n reply).Faithful p handles Seen := by
  obtain hsame | ⟨hcopies, -, flight, hflight, ⟨-, hhear⟩ | ⟨e, hhear⟩⟩ := hear_cases p n reply w
  · rw [hsame]
    exact h
  · rw [hhear]
    have hmem := List.mem_of_getElem? hflight
    refine ⟨h.waiting, by simp [drafted_of_copies_eq_nil, hcopies], ?flights, ?arrived, ?pending⟩
    case flights => exact fun f hf => h.flights f (List.mem_of_mem_eraseIdx hf)
    case arrived =>
      intro f hf
      rcases List.mem_append.mp hf with hf | hf
      · exact h.arrived f hf
      · exact List.mem_singleton.mp hf ▸ h.flights flight hmem
    case pending => exact fun q hq => ⟨flight, by simp, hq⟩
  · rw [hhear]
    exact h.fail e w.copies

theorem Faithful.settle (h : w.Faithful p handles Seen) : w.settle.Faithful p handles Seen := by
  obtain hsame | ⟨q, pending, hpending, hsettle⟩ := settle_cases w
  · rw [hsame]
    exact h
  · rw [hsettle]
    refine ⟨h.waiting, h.drafted, h.flights, h.arrived, ?_⟩
    exact fun q' hq' => h.pending q' (hpending ▸ List.mem_cons_of_mem q hq')

theorem Faithful.cancel (h : w.Faithful p handles Seen) : w.cancel.Faithful p handles Seen := by
  obtain hsame | ⟨-, e, hcancel⟩ := cancel_cases w
  · rw [hsame]
    exact h
  · rw [hcancel]
    exact h.fail e w.copies

theorem Faithful.step (h : w.Faithful p handles Seen)
    (hseen : ∀ q, w.agent.get? q.1 = some q.2 → Seen q) (e : Event) :
    (w.step p e).Faithful p handles Seen := by
  cases e with
  | poll handle x => exact ⟨h.waiting, h.drafted, h.flights, h.arrived, h.pending⟩
  | copy => exact h.copy hseen
  | send => exact h.send
  | hear n reply => exact h.hear n reply
  | settle => exact h.settle
  | cancel => exact h.cancel

/-- What the instances are at every moment of a run is what its deliveries may carry. -/
theorem Faithful.run (h : w.Faithful p handles Seen) {events : List Event}
    (hseen : ∀ k q, (w.run p (events.take k)).agent.get? q.1 = some q.2 → Seen q) :
    (w.run p events).Faithful p handles Seen := by
  induction events generalizing w with
  | nil => exact h
  | cons e events ih =>
    refine ih (h.step (hseen 0) e) fun k => ?_
    exact hseen (k + 1)

end Push

end Telemetry.Agent
