-- SUMMARY: What every event of the traffic between an agent and its collector can do, and how it changes the balance of a counter.
import Mathlib
import Telemetry.Proofs.Agent.Traffic

/-!
# Balance

What a collector has of a counter and what its agent still holds go out of step in two ways: a request has
been stored and its reply has not been heeded yet, or will never be. The balance leaves both out. It
changes by what is added at the agent, and by nothing else.
-/

namespace Telemetry.Agent

/-! ## Cycles -/

namespace Cycle

/-- A launch sends the next batch as it is now, or ends the cycle. -/
theorem launch_cases {p : Pusher} {c : Cycle} (h : c.canLaunch p) (t : Instances) :
    (∃ flight, (∀ q ∈ flight.carried, t.get? q.1 = some q.2) ∧ c.launch p t =
        { c with waiting := c.waiting.tail, flights := c.flights ++ [flight] }) ∨
      ∃ e, c.launch p t = failed e := by
  unfold canLaunch at h
  unfold launch
  split
  · rename_i hnil
    simp [hnil] at h
  · rename_i batch rest hcons
    dsimp only
    split
    · rename_i delivery _
      refine .inl ⟨⟨delivery, _⟩, ?_, by rw [hcons]; rfl⟩
      intro q hq
      obtain ⟨handle, -, hmap⟩ := List.mem_filterMap.mp hq
      obtain ⟨m, hm, rfl⟩ := Option.map_eq_some_iff.mp hmap
      exact hm
    · exact .inr ⟨_, rfl⟩

theorem receive_of_ok {p : Pusher} {c : Cycle} {n : Nat} {flight : Flight} {reply : Reply}
    (hflight : c.flights[n]? = some flight) (hverdict : reply.verdict p.patience = .ok ())
    (t : Instances) :
    c.receive p n reply t =
      ({ c with flights := c.flights.eraseIdx n }, settle flight.carried t) := by
  unfold receive
  simp only [hflight, hverdict, within_ok]

theorem receive_of_error {p : Pusher} {c : Cycle} {n : Nat} {flight : Flight} {reply : Reply}
    {e : Error} (hflight : c.flights[n]? = some flight)
    (hverdict : reply.verdict p.patience = .error e) (t : Instances) :
    ∃ e, c.receive p n reply t = (failed e, t) := by
  unfold receive
  simp only [hflight, hverdict]
  exact ⟨_, rfl⟩

end Cycle

/-- The agent hears of a request that it has arrived if and only if it has been stored and the reply comes
    as a whole. -/
theorem Answer.verdict_eq_ok_iff {a : Answer} {patience : Duration} :
    a.reply.verdict patience = .ok () ↔ a.stored = true ∧ a.reply ≠ .brokenBody := by
  obtain ⟨stored, reply, tells⟩ := a
  cases reply with
  | response status body =>
    have hverdict : (Reply.response status body).verdict patience = if isSuccess status then .ok ()
        else fail (.unexpectedStatus status (if Reply.hasBody status then body else "")) := rfl
    obtain rfl : isSuccess status = stored := tells
    rw [hverdict]
    split
    · rename_i hstatus
      exact iff_of_true rfl ⟨hstatus, (nomatch ·)⟩
    · rename_i hstatus
      exact iff_of_false (nomatch ·) fun h => hstatus h.1
  | brokenBody => exact iff_of_false (nomatch ·) fun h => h.2 rfl
  | refused => cases tells
  | silence => cases tells

/-! ## Lists of passages -/

theorem amount_perm {xs ys : List Metric} (h : xs.Perm ys) (name : String) :
    amount xs name = amount ys name :=
  exactSum_perm (deltas_perm h name)

/-- What is stored of one request is part of what is stored of all. -/
theorem amount_stored_eraseIdx {passages : List Passage} {n : Nat} {q : Passage}
    (h : passages[n]? = some q) (name : String) :
    amount (passages.flatMap Passage.stored) name =
      amount q.stored name + amount ((passages.eraseIdx n).flatMap Passage.stored) name := by
  obtain ⟨hn, rfl⟩ := List.getElem?_eq_some_iff.mp h
  have hperm := (List.getElem_cons_eraseIdx_perm hn).symm
  rw [amount_perm (hperm.flatMap_right _), List.flatMap_cons, amount_append]

theorem amount_stored_set {passages : List Passage} {n : Nat} {q : Passage}
    (h : passages[n]? = some q) (q' : Passage) (name : String) :
    amount ((passages.set n q').flatMap Passage.stored) name =
      amount (passages.flatMap Passage.stored) name - amount q.stored name +
        amount q'.stored name := by
  have hn := (List.getElem?_eq_some_iff.mp h).1
  have hset : (passages.set n q')[n]? = some q' := List.getElem?_set_self hn
  rw [amount_stored_eraseIdx hset, List.eraseIdx_set_eq, amount_stored_eraseIdx h]
  omega

namespace Traffic

/-! ## The invariant -/

/-- The requests of the cycle are its flights, a cycle that has failed has nothing left to do, what is
    carried was read from instances of the agent, and the collector files its instances. -/
structure Sound (w : Traffic) : Prop where
  flights : w.passages.map (·.flight) = w.cycle.flights
  work : w.cycle.failure ≠ none → w.cycle.work = 0
  backed : ∀ q ∈ w.passages, ∀ carried ∈ q.flight.carried, Backed w.agent carried
  filed : w.collector.Filed

theorem sound_idle (agent : Instances) {collector : Collector} (hfiled : collector.Filed) :
    (idle agent collector).Sound where
  flights := rfl
  work := fun _ => rfl
  backed := fun _ hq => nomatch hq
  filed := hfiled

variable {p : Pusher} {w : Traffic}

theorem Sound.length (h : w.Sound) : w.passages.length = w.cycle.flights.length := by
  rw [← h.flights, List.length_map]

theorem Sound.flight (h : w.Sound) {n : Nat} {q : Passage} (hq : w.passages[n]? = some q) :
    w.cycle.flights[n]? = some q.flight := by
  rw [← h.flights, List.getElem?_map, hq]
  rfl

/-- A cycle with something left to do has not failed. -/
theorem Sound.not_failed (h : w.Sound) (hwork : w.cycle.work ≠ 0) : w.cycle.failure = none := by
  by_contra hfailure
  exact hwork (h.work hfailure)

/-! ## What an event can do -/

theorem start_cases (h : w.Sound) (handles : List Handle) :
    w.step p (.start handles) = w ∨
      w.passages = [] ∧ w.step p (.start handles) = { w with cycle := .start p handles } := by
  simp only [step]
  split
  · rename_i hwork
    refine .inr ⟨List.eq_nil_of_length_eq_zero ?_, rfl⟩
    rw [h.length]
    unfold Cycle.work at hwork
    omega
  · exact .inl rfl

theorem launch_cases (h : w.Sound) :
    w.launch p = w ∨ w.passages.length < p.parallel ∧
      ((∃ e, w.launch p = w.abandon (.failed e)) ∨
        ∃ flight : Flight, (∀ q ∈ flight.carried, w.agent.get? q.1 = some q.2) ∧
          w.launch p = { w with
            cycle := ⟨w.cycle.waiting.tail, w.cycle.flights ++ [flight], none⟩
            passages := w.passages ++ [⟨flight, none⟩] }) := by
  unfold launch
  split
  · rename_i hcan
    have hparts : w.cycle.waiting ≠ [] ∧ w.cycle.flights.length < p.parallel := by
      simpa [Cycle.canLaunch] using hcan
    refine .inr ⟨h.length ▸ hparts.2, ?_⟩
    obtain ⟨flight, hcarried, hcycle⟩ | ⟨e, hcycle⟩ := Cycle.launch_cases hcan w.agent
    · have hfailure : w.cycle.failure = none := by
        refine h.not_failed fun hwork => hparts.1 (List.eq_nil_of_length_eq_zero ?_)
        unfold Cycle.work at hwork
        omega
      refine .inr ⟨flight, hcarried, ?_⟩
      simp only [hcycle, hfailure, h.length, List.drop_left, List.map_cons, List.map_nil]
    · refine .inl ⟨e, ?_⟩
      simp only [hcycle, Cycle.failed]
  · exact .inl rfl

theorem handle_cases (n : Nat) (answer : Answer) :
    w.handle p n answer = w ∨
      ∃ flight collector, w.passages[n]? = some ⟨flight, none⟩ ∧
        (answer.stored = false ∧ collector = w.collector ∨
          answer.stored = true ∧ flight.storeIn? p w.collector = some collector) ∧
        w.handle p n answer =
          { w with passages := w.passages.set n ⟨flight, some answer⟩, collector } := by
  unfold handle
  split
  · rename_i flight hq
    split
    · rename_i hstored
      split
      · rename_i collector hstore
        exact .inr ⟨flight, collector, hq, .inr ⟨hstored, hstore⟩, rfl⟩
      · exact .inl rfl
    · rename_i hstored
      exact .inr ⟨flight, w.collector, hq, .inl ⟨Bool.eq_false_of_not_eq_true hstored, rfl⟩, rfl⟩
  · exact .inl rfl

theorem receive_cases (h : w.Sound) (n : Nat) :
    w.receive p n = w ∨
      ∃ flight answer, w.passages[n]? = some ⟨flight, some answer⟩ ∧
        (answer.reply.verdict p.patience ≠ .ok () ∧ (∃ e, w.receive p n = w.abandon (.failed e)) ∨
          answer.reply.verdict p.patience = .ok () ∧
            w.receive p n = { w with
              agent := Cycle.settle flight.carried w.agent
              cycle := ⟨w.cycle.waiting, w.cycle.flights.eraseIdx n, none⟩
              passages := w.passages.eraseIdx n }) := by
  unfold receive
  split
  · rename_i flight answer hq
    have hflight := h.flight hq
    refine .inr ⟨flight, answer, hq, ?_⟩
    cases hverdict : answer.reply.verdict p.patience with
    | ok _ =>
      have hfailure : w.cycle.failure = none := by
        refine h.not_failed fun hwork => ?_
        have hn := (List.getElem?_eq_some_iff.mp hflight).1
        unfold Cycle.work at hwork
        omega
      refine .inr ⟨rfl, ?_⟩
      simp only [Cycle.receive_of_ok hflight hverdict, hfailure]
    | error e =>
      obtain ⟨e, hreceive⟩ := Cycle.receive_of_error hflight hverdict w.agent
      refine .inl ⟨nofun, e, ?_⟩
      simp only [hreceive, Cycle.failed]
  · exact .inl rfl

theorem storeStray_cases (n : Nat) :
    w.storeStray p n = w ∨
      ∃ flight collector, w.strays[n]? = some flight ∧
        flight.storeIn? p w.collector = some collector ∧
        w.storeStray p n = { w with
          collector
          strays := w.strays.eraseIdx n
          unheeded := w.unheeded ++ flight.metrics } := by
  unfold storeStray
  split
  · rename_i flight hflight
    split
    · rename_i collector hstore
      exact .inr ⟨flight, collector, hflight, hstore, rfl⟩
    · exact .inl rfl
  · exact .inl rfl

/-! ## One event -/

/-- What the collector has of a counter and the agent holds, without what has been stored but not been
    settled. -/
def balance (w : Traffic) (name : String) : Int :=
  w.collector.collected name + w.agent.held name -
    amount (w.passages.flatMap Passage.stored) name - amount w.unheeded name

theorem poll_spec (h : w.Sound) {handle : Handle} {x : Binary64}
    (hfits : w.Fits p (.poll handle x)) :
    (w.step p (.poll handle x)).Sound ∧ ∀ name, (w.step p (.poll handle x)).balance name =
      w.balance name + w.increment name (.poll handle x) := by
  constructor
  · refine ⟨h.flights, h.work, ?_, h.filed⟩
    intro q hq carried hcarried
    exact (h.backed q hq carried hcarried).update handle (Value.kind_set x)
  · intro name
    simp only [step, balance, increment]
    cases hget : w.agent.get? handle with
    | none => simp [Instances.update_of_get?_eq_none hget]
    | some m =>
      rw [Instances.held_update hget, Metric.share_set (hfits m hget)]
      dsimp only
      omega

theorem start_spec (h : w.Sound) (handles : List Handle) :
    (w.step p (.start handles)).Sound ∧
      ∀ name, (w.step p (.start handles)).balance name = w.balance name := by
  obtain hsame | ⟨hpassages, hstart⟩ := start_cases (p := p) h handles
  · rw [hsame]
    exact ⟨h, fun _ => rfl⟩
  · rw [hstart]
    refine ⟨⟨?_, fun hfailure => absurd rfl hfailure, h.backed, h.filed⟩, fun _ => rfl⟩
    rw [hpassages]
    rfl

/-- Giving up on requests keeps the balance: what is stored of them is unheeded from now on. -/
theorem abandon_spec (h : w.Sound) (e : Error) :
    (w.abandon (.failed e)).Sound ∧ ∀ name, (w.abandon (.failed e)).balance name = w.balance name := by
  constructor
  · exact ⟨rfl, fun _ => rfl, fun _ hq => (nomatch hq), h.filed⟩
  · intro name
    simp only [balance, abandon, List.flatMap_nil, amount_nil, amount_append]
    omega

theorem launch_spec (h : w.Sound) :
    (w.launch p).Sound ∧ ∀ name, (w.launch p).balance name = w.balance name := by
  obtain hsame | ⟨hroom, ⟨e, hfailed⟩ | ⟨flight, hcarried, hlaunch⟩⟩ := launch_cases (p := p) h
  · rw [hsame]
    exact ⟨h, fun _ => rfl⟩
  · rw [hfailed]
    exact abandon_spec h e
  · rw [hlaunch]
    constructor
    · refine ⟨by simp [h.flights], fun hfailure => absurd rfl hfailure, ?_, h.filed⟩
      intro q hq carried hmem
      rcases List.mem_append.mp hq with hq | hq
      · exact h.backed q hq carried hmem
      · obtain rfl := List.mem_singleton.mp hq
        exact ⟨carried.2, hcarried carried hmem, rfl, rfl⟩
    · intro name
      simp [balance, Passage.stored]

/-- A collector that stores a request has what the request carries on top of what it had. -/
theorem storeIn?_spec {flight : Flight} {c c' : Collector} (hfiled : c.Filed)
    (h : flight.storeIn? p c = some c') (hfits : c.CanStore flight.metrics) :
    c'.Filed ∧ ∀ name, c'.collected name = c.collected name + amount flight.metrics name := by
  unfold Flight.storeIn? at h
  split at h
  · cases h
  · rename_i records hencode
    split at h
    · rename_i answer after hstore
      cases h
      exact Collector.collected_store hfiled hencode hstore hfits
    · cases h

theorem Sound.answered (h : w.Sound) {n : Nat} {flight : Flight}
    (hq : w.passages[n]? = some ⟨flight, none⟩) (answer : Option Answer) {collector : Collector}
    (hfiled : collector.Filed) :
    ({ w with passages := w.passages.set n ⟨flight, answer⟩, collector } : Traffic).Sound where
  flights := by
    obtain ⟨hn, hflight⟩ := List.getElem?_eq_some_iff.mp (h.flight hq)
    dsimp only at hflight
    rw [List.map_set, h.flights, ← hflight, List.set_getElem_self]
  work := h.work
  backed := fun q hmem carried hcarried => by
    rcases List.mem_or_eq_of_mem_set hmem with hmem | rfl
    · exact h.backed q hmem carried hcarried
    · exact h.backed _ (List.mem_of_getElem? hq) carried hcarried
  filed := hfiled

theorem handle_spec (h : w.Sound) {n : Nat} {answer : Answer} (hfits : w.Fits p (.handle n answer)) :
    (w.handle p n answer).Sound ∧ ∀ name, (w.handle p n answer).balance name = w.balance name := by
  obtain hsame | ⟨flight, collector, hq, hstored, hhandle⟩ := handle_cases (p := p) (w := w) n answer
  · rw [hsame]
    exact ⟨h, fun _ => rfl⟩
  · rw [hhandle]
    rcases hstored with ⟨hrefused, rfl⟩ | ⟨hstored, hstore⟩
    · refine ⟨h.answered hq _ h.filed, ?_⟩
      intro name
      simp [balance, amount_stored_set hq, Passage.stored, hrefused]
    · obtain ⟨hfiled, hcollected⟩ := storeIn?_spec h.filed hstore (hfits _ hq hstored)
      refine ⟨h.answered hq _ hfiled, ?_⟩
      intro name
      simp [balance, hcollected, amount_stored_set hq, Passage.stored, hstored]
      omega

theorem receive_spec (h : w.Sound) {n : Nat} (hfits : w.Fits p (.receive n)) :
    (w.receive p n).Sound ∧ ∀ name, (w.receive p n).balance name = w.balance name := by
  obtain hsame | ⟨flight, answer, hq, ⟨-, e, hfailed⟩ | ⟨hverdict, hreceive⟩⟩ :=
    receive_cases (p := p) h n
  · rw [hsame]
    exact ⟨h, fun _ => rfl⟩
  · rw [hfailed]
    exact abandon_spec h e
  · have hbacked := h.backed _ (List.mem_of_getElem? hq)
    have hstored : Passage.stored ⟨flight, some answer⟩ = flight.metrics := by
      simp [Passage.stored, (Answer.verdict_eq_ok_iff.mp hverdict).1]
    have hsettle := Cycle.held_settle hbacked (hfits _ answer hq rfl hverdict)
    rw [hreceive]
    constructor
    · refine ⟨?_, fun hfailure => absurd rfl hfailure, ?_, h.filed⟩
      · rw [← h.flights, List.eraseIdx_map]
      · intro q hmem carried hcarried
        exact (h.backed q (List.mem_of_mem_eraseIdx hmem) carried hcarried).settle _
    · intro name
      simp only [balance, hsettle, amount_stored_eraseIdx hq, hstored, Flight.metrics]
      omega

theorem storeStray_spec (h : w.Sound) {n : Nat} (hfits : w.Fits p (.storeStray n)) :
    (w.storeStray p n).Sound ∧ ∀ name, (w.storeStray p n).balance name = w.balance name := by
  obtain hsame | ⟨flight, collector, hflight, hstore, hstray⟩ := storeStray_cases (p := p) (w := w) n
  · rw [hsame]
    exact ⟨h, fun _ => rfl⟩
  · obtain ⟨hfiled, hcollected⟩ := storeIn?_spec h.filed hstore (hfits _ hflight)
    rw [hstray]
    refine ⟨⟨h.flights, h.work, h.backed, hfiled⟩, ?_⟩
    intro name
    simp only [balance, hcollected, amount_append]
    omega

/-- An event leaves the invariant, and changes the balance by what it adds to the counters of the agent. -/
theorem step_spec (h : w.Sound) {e : Event} (hfits : w.Fits p e) :
    (w.step p e).Sound ∧ ∀ name, (w.step p e).balance name = w.balance name + w.increment name e := by
  cases e with
  | poll handle x => exact poll_spec h hfits
  | start handles => simpa [increment] using start_spec h handles
  | launch => simpa [step, increment] using launch_spec h
  | handle n answer => simpa [step, increment] using handle_spec h hfits
  | receive n => simpa [step, increment] using receive_spec h hfits
  | storeStray n => simpa [step, increment] using storeStray_spec h hfits
  | refuseStray n =>
    exact ⟨⟨h.flights, h.work, h.backed, h.filed⟩, fun name => (Int.add_zero _).symm⟩

/-! ## Runs -/

/-- Over a run, the balance changes by all increments. -/
theorem run_spec (h : w.Sound) {events : List Event} (hexact : w.Exact p events) :
    (w.run p events).Sound ∧
      ∀ name, (w.run p events).balance name = w.balance name + w.increments p name events := by
  induction events generalizing w with
  | nil => exact ⟨h, fun name => (Int.add_zero _).symm⟩
  | cons e events ih =>
    obtain ⟨hstep, hbalance⟩ := step_spec (p := p) h hexact.1
    obtain ⟨hrun, hrest⟩ := ih hstep hexact.2
    refine ⟨hrun, ?_⟩
    intro name
    rw [increments, ← Int.add_assoc, ← hbalance name]
    exact hrest name

end Traffic

end Telemetry.Agent
