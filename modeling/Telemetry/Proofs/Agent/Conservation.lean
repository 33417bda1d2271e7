-- SUMMARY: Conservation of counters between an agent and its collector, over every order of polls, requests and replies.
import Mathlib
import Telemetry.Proofs.Agent.Balance

/-!
# Conservation

What the collector has of a counter and what the agent still holds are, together, all increments, as long
as every reply is heeded. A request that is stored although its cycle fails counts twice, and this is the
only way in which the sum can go wrong. The balance accounts for both; what remains is when all replies
are heeded.
-/

namespace Telemetry.Agent.Traffic

variable {p : Pusher} {w : Traffic}

/-! ## Cycles that do not fail -/

/-- No request has outlived its cycle. -/
def AllHeeded (w : Traffic) : Prop :=
  w.strays = [] ∧ w.unheeded = []

theorem allHeeded_start (hsound : w.Sound) (h : w.AllHeeded) (handles : List Handle) :
    (w.step p (.start handles)).AllHeeded := by
  obtain hsame | ⟨-, hstart⟩ := start_cases (p := p) hsound handles
  · rw [hsame]
    exact h
  · rw [hstart]
    exact h

theorem allHeeded_launch (hsound : w.Sound) (h : w.AllHeeded)
    (hfailure : (w.launch p).cycle.failure = none) : (w.launch p).AllHeeded := by
  obtain hsame | ⟨-, ⟨e, hfailed⟩ | ⟨flight, -, hlaunch⟩⟩ := launch_cases (p := p) hsound
  · rw [hsame]
    exact h
  · rw [hfailed] at hfailure
    cases hfailure
  · rw [hlaunch]
    exact h

theorem allHeeded_handle (h : w.AllHeeded) (n : Nat) (answer : Answer) :
    (w.handle p n answer).AllHeeded := by
  obtain hsame | ⟨flight, collector, -, -, hhandle⟩ := handle_cases (p := p) (w := w) n answer
  · rw [hsame]
    exact h
  · rw [hhandle]
    exact h

theorem allHeeded_receive (hsound : w.Sound) (h : w.AllHeeded) {n : Nat}
    (hfailure : (w.receive p n).cycle.failure = none) : (w.receive p n).AllHeeded := by
  obtain hsame | ⟨flight, answer, -, ⟨-, e, hfailed⟩ | ⟨-, hreceive⟩⟩ := receive_cases (p := p) hsound n
  · rw [hsame]
    exact h
  · rw [hfailed] at hfailure
    cases hfailure
  · rw [hreceive]
    exact h

theorem storeStray_eq_self (h : w.AllHeeded) (n : Nat) : w.storeStray p n = w := by
  obtain hsame | ⟨flight, collector, hflight, -⟩ := storeStray_cases (p := p) (w := w) n
  · exact hsame
  · simp [h.1] at hflight

theorem allHeeded_refuseStray (h : w.AllHeeded) (n : Nat) :
    (w.step p (.refuseStray n)).AllHeeded := by
  simpa [AllHeeded, step, h.1] using h.2

/-- As long as no cycle fails, every reply is heeded. -/
theorem allHeeded_step (hsound : w.Sound) (h : w.AllHeeded) {e : Event}
    (hfailure : (w.step p e).cycle.failure = none) : (w.step p e).AllHeeded := by
  cases e with
  | poll handle x => exact h
  | start handles => exact allHeeded_start hsound h handles
  | launch => exact allHeeded_launch hsound h hfailure
  | handle n answer => exact allHeeded_handle h n answer
  | receive n => exact allHeeded_receive hsound h hfailure
  | storeStray n =>
    rw [step, storeStray_eq_self h]
    exact h
  | refuseStray n => exact allHeeded_refuseStray h n

theorem allHeeded_run (hsound : w.Sound) (h : w.AllHeeded) {events : List Event}
    (hexact : w.Exact p events) (hfailure : ∀ k, (w.run p (events.take k)).cycle.failure = none) :
    (w.run p events).AllHeeded := by
  induction events generalizing w with
  | nil => exact h
  | cons e events ih =>
    have hfirst : (w.step p e).cycle.failure = none := by simpa [run] using hfailure 1
    have hstep := (step_spec hsound hexact.1).1
    refine ih hstep (allHeeded_step hsound h hfirst) hexact.2 ?_
    intro k
    simpa [run] using hfailure (k + 1)

/-! ## One request at a time -/

/-- At most one request is on its way, its reply is whole, and no request has outlived its cycle. -/
structure Alone (w : Traffic) : Prop where
  length_le : w.passages.length ≤ 1
  whole : ∀ q ∈ w.passages, ∀ answer ∈ q.answer, answer.reply ≠ .brokenBody
  heeded : w.AllHeeded

theorem alone_of_passages_eq_nil (hpassages : w.passages = []) (h : w.AllHeeded) : w.Alone where
  length_le := by simp [hpassages]
  whole := by simp [hpassages]
  heeded := h

/-- Giving up on requests that have been handled and of which none has been stored leaves none behind. -/
theorem allHeeded_abandon (h : w.AllHeeded) (c : Cycle)
    (hhandled : ∀ q ∈ w.passages, ∃ answer, q.answer = some answer ∧ answer.stored = false) :
    (w.abandon c).AllHeeded := by
  constructor
  · simp only [abandon, h.1, List.nil_append, List.map_eq_nil_iff, List.filter_eq_nil_iff]
    intro q hq
    obtain ⟨answer, hanswer, -⟩ := hhandled q hq
    simp [hanswer]
  · simp only [abandon, h.2, List.nil_append, List.flatMap_eq_nil_iff]
    intro q hq
    obtain ⟨answer, hanswer, hrefused⟩ := hhandled q hq
    simp [Passage.stored, hanswer, hrefused]

theorem alone_start (hsound : w.Sound) (h : w.Alone) (handles : List Handle) :
    (w.step p (.start handles)).Alone := by
  obtain hsame | ⟨-, hstart⟩ := start_cases (p := p) hsound handles
  · rw [hsame]
    exact h
  · rw [hstart]
    exact ⟨h.length_le, h.whole, h.heeded⟩

theorem alone_launch (hparallel : p.parallel = 1) (hsound : w.Sound) (h : w.Alone) :
    (w.launch p).Alone := by
  obtain hsame | ⟨hroom, hlaunched⟩ := launch_cases (p := p) hsound
  · rw [hsame]
    exact h
  · have hpassages : w.passages = [] := List.eq_nil_of_length_eq_zero (by omega)
    obtain ⟨e, hfailed⟩ | ⟨flight, -, hlaunch⟩ := hlaunched
    · rw [hfailed]
      exact alone_of_passages_eq_nil rfl (allHeeded_abandon h.heeded _ (by simp [hpassages]))
    · rw [hlaunch]
      refine ⟨?_, ?_, h.heeded⟩
      · simp [hpassages]
      · simp [hpassages]

theorem alone_handle (h : w.Alone) {n : Nat} {answer : Answer} (hwhole : answer.reply ≠ .brokenBody) :
    (w.handle p n answer).Alone := by
  obtain hsame | ⟨flight, collector, -, -, hhandle⟩ := handle_cases (p := p) (w := w) n answer
  · rw [hsame]
    exact h
  · rw [hhandle]
    refine ⟨by simpa using h.length_le, ?_, h.heeded⟩
    intro q hq a ha
    rcases List.mem_or_eq_of_mem_set hq with hq | rfl
    · exact h.whole q hq a ha
    · cases ha
      exact hwhole

theorem alone_receive (hsound : w.Sound) (h : w.Alone) (n : Nat) : (w.receive p n).Alone := by
  obtain hsame | ⟨flight, answer, hq, hreceived⟩ := receive_cases (p := p) hsound n
  · rw [hsame]
    exact h
  · have hn := (List.getElem?_eq_some_iff.mp hq).1
    have hlength := h.length_le
    obtain ⟨hverdict, e, hfailed⟩ | ⟨-, hreceive⟩ := hreceived
    · have hwhole := h.whole _ (List.mem_of_getElem? hq) answer rfl
      have hrefused : answer.stored = false := by
        by_contra hstored
        exact hverdict (Answer.verdict_eq_ok_iff.mpr ⟨by simpa using hstored, hwhole⟩)
      rw [hfailed]
      refine alone_of_passages_eq_nil rfl (allHeeded_abandon h.heeded _ ?_)
      intro q hmem
      obtain ⟨k, hk⟩ := List.mem_iff_getElem?.mp hmem
      have hlt := (List.getElem?_eq_some_iff.mp hk).1
      obtain rfl : k = n := by omega
      obtain rfl : q = _ := Option.some_inj.mp (hk.symm.trans hq)
      exact ⟨answer, rfl, hrefused⟩
    · rw [hreceive]
      refine alone_of_passages_eq_nil (List.eq_nil_of_length_eq_zero ?_) h.heeded
      rw [List.length_eraseIdx_of_lt hn]
      omega

theorem alone_step (hparallel : p.parallel = 1) (hsound : w.Sound) (h : w.Alone) {e : Event}
    (hwhole : e.IsWhole) : (w.step p e).Alone := by
  cases e with
  | poll handle x => exact ⟨h.length_le, h.whole, h.heeded⟩
  | start handles => exact alone_start hsound h handles
  | launch => exact alone_launch hparallel hsound h
  | handle n answer => exact alone_handle h hwhole
  | receive n => exact alone_receive hsound h n
  | storeStray n =>
    rw [step, storeStray_eq_self h.heeded]
    exact h
  | refuseStray n => exact ⟨h.length_le, h.whole, allHeeded_refuseStray h.heeded n⟩

/-- With one request at a time, a cycle that fails leaves no other request behind. -/
theorem alone_run (hparallel : p.parallel = 1) (hsound : w.Sound) (h : w.Alone)
    {events : List Event} (hexact : w.Exact p events) (hwhole : ∀ e ∈ events, e.IsWhole) :
    (w.run p events).Alone := by
  induction events generalizing w with
  | nil => exact h
  | cons e events ih =>
    exact ih (step_spec hsound hexact.1).1
      (alone_step hparallel hsound h (hwhole e List.mem_cons_self)) hexact.2
      fun e' he' => hwhole e' (List.mem_cons_of_mem _ he')

/-! ## Conservation -/

/-- Over every run of an agent and its collector in which no sum leaves the range, whenever no request and
    no reply is on its way, the collector and the agent together have of every counter what they had at the
    beginning, all increments, and once more what was stored of requests whose cycle had failed before their
    replies came. There are no such requests if one is sent at a time, or as long as no cycle fails: then no
    increment is lost and none counts twice. -/
theorem counters_conserved {p : Pusher} {agent : Instances} {collector : Collector}
    (hfiled : collector.Filed) {events : List Event} (hexact : (idle agent collector).Exact p events) :
    let before := idle agent collector
    let after := before.run p events
    (after.isQuiet → ∀ name, after.collector.collected name + after.agent.held name =
      collector.collected name + agent.held name + before.increments p name events +
        amount after.unheeded name) ∧
    (p.parallel = 1 → (∀ e ∈ events, e.IsWhole) → after.unheeded = []) ∧
    ((∀ k, (before.run p (events.take k)).cycle.failure = none) → after.unheeded = []) := by
  intro before after
  have hsound : before.Sound := sound_idle agent hfiled
  have hheeded : before.AllHeeded := ⟨rfl, rfl⟩
  refine ⟨?quiet, ?alone, ?heeded⟩
  case quiet =>
    intro hquiet name
    have hbalance : after.balance name = before.balance name + before.increments p name events :=
      (run_spec hsound hexact).2 name
    have hpassages : after.passages = [] := by
      simp [isQuiet] at hquiet
      exact hquiet.1
    have hbefore : before.balance name = collector.collected name + agent.held name := by
      simp [before, balance, idle]
    rw [hbefore] at hbalance
    simp only [balance, hpassages, List.flatMap_nil, amount_nil] at hbalance
    omega
  case alone =>
    intro hparallel hwhole
    exact (alone_run hparallel hsound (alone_of_passages_eq_nil rfl hheeded) hexact hwhole).heeded.2
  case heeded =>
    intro hfailure
    exact (allHeeded_run hsound hheeded hexact hfailure).2

/-! ## A request that counts twice -/

@[simp] theorem collector_start (w : Traffic) (handles : List Handle) :
    (w.step p (.start handles)).collector = w.collector := by
  simp only [step]
  split
  · rfl
  · rfl

@[simp] theorem collector_launch (w : Traffic) : (w.launch p).collector = w.collector := by
  unfold launch
  split
  · dsimp only
    split
    · rfl
    · rfl
  · rfl

theorem collector_handle_of_refused (w : Traffic) (n : Nat) {answer : Answer}
    (hrefused : answer.stored = false) : (w.handle p n answer).collector = w.collector := by
  unfold handle
  split
  · simp [hrefused]
  · rfl

/-- A pusher that sends one record in a request and two requests at the same time. -/
def twoAtATime : Pusher where
  toAscii? := Url.Domain.toAscii?
  baseUrl := "http://c"
  converter := ⟨.disabled⟩
  mode := .json
  parallel := 2
  parallel_pos := by decide
  batchSize := 1
  batchSize_pos := by decide
  patience := .ofSeconds 1
  compress := false

/-- Two counters at an agent, and a collector that has nothing yet. -/
def twoCounters : Traffic :=
  idle ⟨#[⟨"a", .counter 0⟩, ⟨"b", .counter 0⟩]⟩
    ⟨.start .empty (.file ⟨none⟩) false .empty, ⟨.disabled⟩⟩

/-- Of two requests on their way at the same time the first is refused and the second is stored, and the
    refusal is heard of first. -/
def failedCycle : List Event :=
  [.poll 0 (.ofNat 5), .poll 1 (.ofNat 7), .start [0, 1], .launch, .launch,
    .handle 0 ⟨false, .response 500 "", rfl⟩, .handle 1 ⟨true, .response 200 "", rfl⟩, .receive 0]

theorem filed_twoCounters : twoCounters.collector.Filed :=
  MemoryStore.filed_empty _

theorem canStore_of_fresh {c : Collector} {m : Metric} (hfresh : ∀ name, c.collected name = 0)
    (hbound : |m.value.integer.toInt| ≤ Int64.maxValue.toInt) : c.CanStore [m] := by
  intro name k
  rw [hfresh, Int.zero_add]
  refine inRange_exactSum_take ?_ k
  unfold deltas
  rw [updates_cons]
  split
  · simpa [updates, absoluteSum] using hbound
  · simp [updates, absoluteSum]
    decide

/-- A counter that has nothing yet can grow by any number. -/
theorem fits_poll {w : Traffic} {handle : Handle} {name : String}
    (hzero : w.agent.get? handle = some ⟨name, .counter 0⟩) (x : Binary64) :
    w.Fits p (.poll handle x) := by
  intro m hm
  obtain rfl := Option.some_inj.mp (hzero.symm.trans hm)
  change InRange ((0 : Int64).toInt + x.toInt64.toInt)
  rw [Int64.toInt_zero, Int.zero_add]
  exact ⟨Int64.minValue_le_toInt _, Int64.toInt_le _⟩

/-- A request of one metric fits into the collector that has nothing yet. -/
theorem fits_handle {w : Traffic} (hcollector : w.collector = twoCounters.collector) {n : Nat} {m : Metric}
    (hmetrics : w.passages[n]?.map (·.flight.metrics) = some [m])
    (hbound : |m.value.integer.toInt| ≤ Int64.maxValue.toInt) (answer : Answer) :
    w.Fits p (.handle n answer) := by
  have hfresh : ∀ name, w.collector.collected name = 0 := by
    intro name
    simp [hcollector, twoCounters, idle, Collector.collected, Storage.value?, Storage.start, Value.countOf]
  intro q hq _
  rw [hq, Option.map_some, Option.some_inj] at hmetrics
  rw [hmetrics]
  exact canStore_of_fresh hfresh hbound

/-- Nothing is taken away when a reply is not one of success. -/
theorem fits_receive {w : Traffic} {n : Nat} {reply : Reply}
    (hreply : w.passages[n]?.map (·.answer.map (·.reply)) = some (some reply))
    (hverdict : reply.verdict p.patience ≠ .ok ()) : w.Fits p (.receive n) := by
  intro q answer hq hanswer hok
  rw [hq, Option.map_some, hanswer, Option.map_some, Option.some_inj, Option.some_inj] at hreply
  exact absurd (hreply ▸ hok) hverdict

theorem exact_failedCycle : twoCounters.Exact twoAtATime failedCycle := by
  refine ⟨fits_poll rfl _, fits_poll rfl _, trivial, trivial, trivial, ?refuse, ?store, ?receive, trivial⟩
  case refuse =>
    intro q _ hstored
    cases hstored
  case store =>
    have hcollector : (twoCounters.run twoAtATime (failedCycle.take 6)).collector =
        twoCounters.collector := by
      refine (collector_handle_of_refused _ 0 rfl).trans ?_
      refine (collector_launch _).trans ((collector_launch _).trans ?_)
      exact collector_start _ [0, 1]
    have hmetrics : (twoCounters.run twoAtATime (failedCycle.take 6)).passages[1]?.map
        (·.flight.metrics) = some [⟨"b", .counter 7⟩] := by decide +kernel
    exact fits_handle hcollector hmetrics (by decide) _
  case receive =>
    have hreply : (twoCounters.run twoAtATime (failedCycle.take 7)).passages[0]?.map
        (·.answer.map (·.reply)) = some (some (.response 500 "")) := by decide +kernel
    exact fits_receive hreply nofun

/-- The law at the failed cycle: what was stored of the second request counts once more. -/
theorem counters_conserved_failedCycle :
    twoCounters.collector.Filed ∧ twoCounters.Exact twoAtATime failedCycle ∧
      let after := twoCounters.run twoAtATime failedCycle
      after.isQuiet = true ∧
        after.collector.collected "b" + after.agent.held "b" =
          twoCounters.collector.collected "b" + twoCounters.agent.held "b" +
            twoCounters.increments twoAtATime "b" failedCycle + amount after.unheeded "b" := by
  have hquiet : (twoCounters.run twoAtATime failedCycle).isQuiet = true := by decide +kernel
  refine ⟨filed_twoCounters, exact_failedCycle, hquiet, ?_⟩
  exact (counters_conserved filed_twoCounters exact_failedCycle).1 hquiet "b"

/-- A pusher that sends one request at a time. -/
def oneAtATime : Pusher :=
  { twoAtATime with parallel := 1, parallel_pos := Nat.one_pos }

/-- A request is stored, the status of the reply says so, and its body cannot be read. -/
def unreadReply : List Event :=
  [.poll 0 (.ofNat 5), .start [0], .launch, .handle 0 ⟨true, .brokenBody, trivial⟩, .receive 0]

theorem exact_unreadReply : twoCounters.Exact oneAtATime unreadReply := by
  refine ⟨fits_poll rfl _, trivial, trivial, ?store, ?receive, trivial⟩
  case store =>
    have hcollector : (twoCounters.run oneAtATime (unreadReply.take 3)).collector =
        twoCounters.collector := (collector_launch _).trans (collector_start _ [0])
    have hmetrics : (twoCounters.run oneAtATime (unreadReply.take 3)).passages[0]?.map
        (·.flight.metrics) = some [⟨"a", .counter 5⟩] := by decide +kernel
    exact fits_handle hcollector hmetrics (by decide) _
  case receive =>
    have hreply : (twoCounters.run oneAtATime (unreadReply.take 4)).passages[0]?.map
        (·.answer.map (·.reply)) = some (some .brokenBody) := by decide +kernel
    exact fits_receive hreply nofun

/-- When the reply to the only request could not be read, nothing is on its way any more, the counter grew by
    five, and agent and collector together have ten. -/
theorem stored_request_counts_twice :
    twoCounters.Exact oneAtATime unreadReply ∧
      let after := twoCounters.run oneAtATime unreadReply
      after.isQuiet = true ∧ twoCounters.collector.collected "a" = 0 ∧
        twoCounters.agent.held "a" = 0 ∧ twoCounters.increments oneAtATime "a" unreadReply = 5 ∧
        after.collector.collected "a" + after.agent.held "a" = 10 := by
  refine ⟨exact_unreadReply, ?_, ?_, ?_, ?_, ?_⟩
  · decide +kernel
  · decide +kernel
  · decide +kernel
  · decide +kernel
  · decide +kernel

end Telemetry.Agent.Traffic
