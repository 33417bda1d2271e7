-- SUMMARY: Sources that share a channel with one reader: nothing is lost, repeated or reordered, and nothing gets stuck before the end.
import Mathlib.Data.List.Perm.Basic
import Telemetry.Agent.Merge

/-!
# Sources, a channel and its reader

Each source has a sender of its own. It puts its elements into the channel while there is room, and drops
the sender when none are left. The reader takes the oldest element out; once all senders are dropped and
the channel is empty, it sees the end. Sources and reader go on in any order.
-/

namespace Telemetry.Agent.Merge

/-- A merge on its way to its reader. -/
structure Stream (α : Type) where
  merge : Merge α
  /-- Whether the sender of each source is still open. -/
  senders : List Bool
  /-- All that was put into the channel so far, each element with the number of its source. -/
  handed : List (Nat × α)
  /-- What the reader has got. -/
  delivered : List α
  /-- The reader has seen the end. -/
  ended : Bool

/-- A step of one source or of the reader. -/
inductive Event where
  /-- A source puts its next element into the channel. -/
  | put (n : Nat)
  /-- A source with no elements left drops its sender. -/
  | close (n : Nat)
  /-- The reader asks for the next element. -/
  | poll

namespace Stream

variable {α : Type}

/-- The stream before any step. -/
def start (sources : List (List α)) : Stream α :=
  ⟨.start sources, .replicate sources.length true, [], [], false⟩

-- ---------------------------------------------------------------------------
-- Steps
-- ---------------------------------------------------------------------------

def put? (w : Stream α) (n : Nat) : Option (Stream α) :=
  match w.merge.sources[n]?, w.merge.produce? n with
  | some (x :: _), some merge => some { w with merge, handed := w.handed ++ [(n, x)] }
  | _, _ => none

def close? (w : Stream α) (n : Nat) : Option (Stream α) :=
  match w.merge.sources[n]?, w.senders[n]? with
  | some [], some true => some { w with senders := w.senders.set n false }
  | _, _ => none

/-- What comes of asking for an element. Nothing comes while the channel is empty and a sender is open. -/
def poll? (w : Stream α) : Option (Stream α) :=
  if w.ended then none
  else
    match w.merge.consume? with
    | some (x, merge) => some { w with merge, delivered := w.delivered ++ [x] }
    | none => if true ∈ w.senders then none else some { w with ended := true }

/-- The stream after a step, if the step is possible. -/
def step? (w : Stream α) : Event → Option (Stream α)
  | .put n => w.put? n
  | .close n => w.close? n
  | .poll => w.poll?

/-- The stream after a step. One that is not possible changes nothing. -/
def step (w : Stream α) (e : Event) : Stream α :=
  (w.step? e).getD w

def run (w : Stream α) (events : List Event) : Stream α :=
  events.foldl step w

/-- What a source has put into the channel. -/
def handedBy (w : Stream α) (n : Nat) : List α :=
  (w.handed.filter fun p => p.1 == n).map (·.2)

-- ---------------------------------------------------------------------------
-- What a step can do
-- ---------------------------------------------------------------------------

variable {w w' : Stream α}

theorem put?_eq_some_iff {n : Nat} :
    w.put? n = some w' ↔
      ∃ x rest, w.merge.channel.length < capacity ∧ w.merge.sources[n]? = some (x :: rest) ∧
        w' = { w with
          merge := ⟨w.merge.sources.set n rest, w.merge.channel ++ [x]⟩
          handed := w.handed ++ [(n, x)] } := by
  unfold put? produce? hasRoom
  cases hsource : w.merge.sources[n]? with
  | none => simp
  | some source =>
    cases source with
    | nil => simp
    | cons x rest =>
      by_cases hroom : w.merge.channel.length < capacity
      · simp [hroom, eq_comm]
      · simp [hroom]

theorem close?_eq_some_iff {n : Nat} :
    w.close? n = some w' ↔
      w.merge.sources[n]? = some [] ∧ w.senders[n]? = some true ∧
        w' = { w with senders := w.senders.set n false } := by
  unfold close?
  split
  · rename_i hsource hsender
    simp [hsource, hsender, eq_comm]
  · rename_i hnot
    simp only [reduceCtorEq, false_iff]
    rintro ⟨hsource, hsender, -⟩
    exact hnot hsource hsender

theorem poll?_eq_some_iff :
    w.poll? = some w' ↔ w.ended = false ∧
      ((∃ x channel, w.merge.channel = x :: channel ∧
          w' = { w with
            merge := { w.merge with channel }
            delivered := w.delivered ++ [x] }) ∨
        w.merge.channel = [] ∧ true ∉ w.senders ∧ w' = { w with ended := true }) := by
  unfold poll? consume?
  cases hended : w.ended with
  | true => simp
  | false =>
    cases hchannel : w.merge.channel with
    | nil =>
      by_cases hsender : true ∈ w.senders
      · simp [hsender]
      · simp [hsender, eq_comm]
    | cons x channel => simp [eq_comm]

-- ---------------------------------------------------------------------------
-- The invariant
-- ---------------------------------------------------------------------------

/-- What one source has left is missing from what all sources have left. -/
theorem cons_flatten_set_perm {sources : List (List α)} {n : Nat} {x : α} {rest : List α}
    (h : sources[n]? = some (x :: rest)) :
    (x :: (sources.set n rest).flatten).Perm sources.flatten := by
  induction sources generalizing n with
  | nil => simp at h
  | cons source others ih =>
    cases n with
    | zero =>
      obtain rfl : source = x :: rest := by simpa using h
      simp
    | succ n =>
      have hothers := ih (n := n) (by simpa using h)
      simp only [List.set_cons_succ, List.flatten_cons]
      exact List.perm_middle.symm.trans (hothers.append_left source)

/-- Everything put into the channel is with the reader or still in the channel, in this order; what a source
    has put there and what it has left make up the source; and only exhausted sources drop their senders. -/
structure Sound (sources : List (List α)) (w : Stream α) : Prop where
  room : w.merge.channel.length ≤ capacity
  senders : w.senders.length = w.merge.sources.length
  closed : ∀ n : Nat, w.senders[n]? = some false → w.merge.sources[n]? = some []
  queued : w.handed.map (·.2) = w.delivered ++ w.merge.channel
  ordered : ∀ n : Nat, sources[n]? = (w.merge.sources[n]?).map (w.handedBy n ++ ·)
  whole : (w.handed.map (·.2) ++ w.merge.sources.flatten).Perm sources.flatten
  drained : w.ended = true → w.merge.channel = [] ∧ true ∉ w.senders

variable {sources : List (List α)}

theorem sound_start (sources : List (List α)) : (start sources).Sound sources where
  room := Nat.zero_le _
  senders := by simp [start, Merge.start]
  closed := by simp [start, List.getElem?_replicate]
  queued := rfl
  ordered := by simp [start, Merge.start, handedBy]
  whole := by simp [start, Merge.start]
  drained := nofun

/-- Once the reader has seen the end, no source has anything left. -/
theorem Sound.exhausted (h : w.Sound sources) (hended : w.ended = true) {n : Nat} {source : List α}
    (hsource : w.merge.sources[n]? = some source) : source = [] := by
  have hlt : n < w.senders.length := h.senders ▸ (List.getElem?_eq_some_iff.mp hsource).1
  have hclosed : w.senders[n] = false := by
    by_contra hopen
    have hmem := List.getElem_mem hlt
    rw [Bool.not_eq_false] at hopen
    exact (h.drained hended).2 (hopen ▸ hmem)
  have hempty := h.closed n (List.getElem?_eq_some_iff.mpr ⟨hlt, hclosed⟩)
  rw [hsource] at hempty
  exact Option.some_inj.mp hempty

theorem handedBy_put (w : Stream α) (merge : Merge α) (n : Nat) (x : α) (k : Nat) :
    ({ w with merge, handed := w.handed ++ [(n, x)] } : Stream α).handedBy k =
      if n = k then w.handedBy k ++ [x] else w.handedBy k := by
  unfold handedBy
  rw [List.filter_append, List.map_append]
  by_cases h : n = k
  · simp [h]
  · simp [h]

theorem Sound.put (h : w.Sound sources) {n : Nat} (hput : w.put? n = some w') : w'.Sound sources := by
  obtain ⟨x, rest, hroom, hsource, rfl⟩ := put?_eq_some_iff.mp hput
  have hn := (List.getElem?_eq_some_iff.mp hsource).1
  refine ⟨?room, ?senders, ?closed, ?queued, ?ordered, ?whole, ?drained⟩
  case room => simpa using Nat.succ_le_of_lt hroom
  case senders => simpa using h.senders
  case closed =>
    intro k hk
    have hclosed := h.closed k hk
    have hne : n ≠ k := by
      rintro rfl
      simp [hclosed] at hsource
    simpa [List.getElem?_set_ne hne] using hclosed
  case queued => simp [h.queued]
  case ordered =>
    intro k
    rw [h.ordered, handedBy_put]
    by_cases hk : n = k
    · subst hk
      simp [hsource, List.getElem?_set_self hn]
    · simp [hk, List.getElem?_set_ne hk]
  case whole =>
    refine List.Perm.trans ?_ h.whole
    simpa using (cons_flatten_set_perm hsource).append_left (w.handed.map (·.2))
  case drained =>
    intro hended
    exact absurd (h.exhausted hended hsource) (List.cons_ne_nil x rest)

theorem Sound.close (h : w.Sound sources) {n : Nat} (hclose : w.close? n = some w') :
    w'.Sound sources := by
  obtain ⟨hsource, hsender, rfl⟩ := close?_eq_some_iff.mp hclose
  refine ⟨h.room, by simpa using h.senders, ?closed, h.queued, h.ordered, h.whole, ?drained⟩
  case closed =>
    intro k hk
    by_cases hnk : n = k
    · exact hnk ▸ hsource
    · exact h.closed k (by simpa [List.getElem?_set_ne hnk] using hk)
  case drained =>
    intro hended
    exact absurd (List.mem_of_getElem? hsender) (h.drained hended).2

theorem Sound.poll (h : w.Sound sources) (hpoll : w.poll? = some w') : w'.Sound sources := by
  obtain ⟨hended, ⟨x, channel, hchannel, rfl⟩ | ⟨hchannel, hsenders, rfl⟩⟩ :=
    poll?_eq_some_iff.mp hpoll
  · have hroom := h.room
    refine ⟨?room, h.senders, h.closed, ?queued, h.ordered, h.whole, ?drained⟩
    case room =>
      simp only [hchannel, List.length_cons] at hroom
      exact Nat.le_of_succ_le hroom
    case queued => simp [h.queued, hchannel]
    case drained => simp [hended]
  · exact ⟨h.room, h.senders, h.closed, h.queued, h.ordered, h.whole, fun _ => ⟨hchannel, hsenders⟩⟩

theorem Sound.step (h : w.Sound sources) (e : Event) : (w.step e).Sound sources := by
  unfold Stream.step
  cases hstep : w.step? e with
  | none => exact h
  | some w' =>
    cases e with
    | put n => exact h.put hstep
    | close n => exact h.close hstep
    | poll => exact h.poll hstep

theorem Sound.run (h : w.Sound sources) (events : List Event) : (w.run events).Sound sources := by
  induction events generalizing w with
  | nil => exact h
  | cons e events ih => exact ih (h.step e)

/-! ## Progress -/

/-- The number of steps that are left: every element is put and taken, every sender is dropped, and the
    reader sees the end. -/
def work (w : Stream α) : Nat :=
  2 * left w.merge.sources + w.merge.channel.length + w.senders.count true +
    if w.ended then 0 else 1

theorem left_set {sources : List (List α)} {n : Nat} {x : α} {rest : List α}
    (h : sources[n]? = some (x :: rest)) : left sources = left (sources.set n rest) + 1 := by
  induction sources generalizing n with
  | nil => simp at h
  | cons source others ih =>
    cases n with
    | zero =>
      obtain rfl : source = x :: rest := by simpa using h
      simp only [List.set_cons_zero, left, List.length_cons]
      omega
    | succ n =>
      have hothers := ih (n := n) (by simpa using h)
      simp only [List.set_cons_succ, left, hothers]
      omega

/-- Every step that is possible is one step less to do. -/
theorem work_of_step? {e : Event} (h : w.step? e = some w') : w'.work + 1 = w.work := by
  cases e with
  | put n =>
    obtain ⟨x, rest, -, hsource, rfl⟩ := put?_eq_some_iff.mp h
    simp only [work, left_set hsource, List.length_append, List.length_singleton]
    omega
  | close n =>
    obtain ⟨-, hsender, rfl⟩ := close?_eq_some_iff.mp h
    obtain ⟨hn, hopen⟩ := List.getElem?_eq_some_iff.mp hsender
    have hpos : 0 < w.senders.count true := List.count_pos_iff.mpr (List.mem_of_getElem? hsender)
    simp only [work, List.count_set hn, hopen]
    simp
    omega
  | poll =>
    obtain ⟨hended, ⟨x, channel, hchannel, rfl⟩ | ⟨-, -, rfl⟩⟩ := poll?_eq_some_iff.mp h
    · simp only [work, hchannel, List.length_cons]
      omega
    · simp [work, hended]

/-- Until the reader has seen the end, it gets an element or the end, or a source can go on. -/
theorem Sound.exists_step? (h : w.Sound sources) (hended : w.ended = false) :
    ∃ e w', w.step? e = some w' := by
  cases hchannel : w.merge.channel with
  | cons x channel =>
    exact ⟨.poll, _, poll?_eq_some_iff.mpr ⟨hended, .inl ⟨x, channel, hchannel, rfl⟩⟩⟩
  | nil =>
    by_cases hsender : true ∈ w.senders
    · obtain ⟨n, hn⟩ := List.mem_iff_getElem?.mp hsender
      have hlt : n < w.merge.sources.length := h.senders ▸ (List.getElem?_eq_some_iff.mp hn).1
      have hsource := List.getElem?_eq_getElem hlt
      cases hrest : w.merge.sources[n] with
      | nil =>
        rw [hrest] at hsource
        exact ⟨.close n, _, close?_eq_some_iff.mpr ⟨hsource, hn, rfl⟩⟩
      | cons x rest =>
        rw [hrest] at hsource
        have hroom : w.merge.channel.length < capacity := by simp [hchannel, capacity]
        exact ⟨.put n, _, put?_eq_some_iff.mpr ⟨x, rest, hroom, hsource, rfl⟩⟩
    · exact ⟨.poll, _, poll?_eq_some_iff.mpr ⟨hended, .inr ⟨hchannel, hsender, rfl⟩⟩⟩

theorem run_cons (w : Stream α) (e : Event) (events : List Event) :
    w.run (e :: events) = (w.step e).run events := rfl

theorem step_of_step? {e : Event} (h : w.step? e = some w') : w.step e = w' := by
  unfold step
  rw [h, Option.getD_some]

/-- From wherever the sources and the reader have got, the reader can see the end. -/
theorem Sound.exists_run_ended (h : w.Sound sources) : ∃ events, (w.run events).ended = true := by
  induction hwork : w.work using Nat.strongRecOn generalizing w with
  | ind work ih =>
    cases hended : w.ended with
    | true => exact ⟨[], hended⟩
    | false =>
      obtain ⟨e, w', hstep⟩ := h.exists_step? hended
      have hless := work_of_step? hstep
      have hsound := h.step e
      rw [step_of_step? hstep] at hsound
      obtain ⟨events, hevents⟩ := ih w'.work (by omega) hsound rfl
      refine ⟨e :: events, ?_⟩
      rw [run_cons, step_of_step? hstep]
      exact hevents

/-- What the reader has got at the end: all of every source, and the part from each in its order. -/
theorem Sound.complete (h : w.Sound sources) (hended : w.ended = true) :
    w.handed.map (·.2) = w.delivered ∧ w.delivered.Perm sources.flatten ∧
      ∀ n source, sources[n]? = some source → w.handedBy n = source := by
  have hempty : w.merge.sources.flatten = [] := by
    refine List.flatten_eq_nil_iff.mpr fun source hsource => ?_
    obtain ⟨n, hn⟩ := List.mem_iff_getElem?.mp hsource
    exact h.exhausted hended hn
  have hqueued : w.handed.map (·.2) = w.delivered := by
    rw [h.queued, (h.drained hended).1, List.append_nil]
  refine ⟨hqueued, ?_, ?_⟩
  · have hwhole := h.whole
    rwa [hempty, List.append_nil, hqueued] at hwhole
  · intro n source hsource
    rw [h.ordered, Option.map_eq_some_iff] at hsource
    obtain ⟨rest, hrest, rfl⟩ := hsource
    rw [h.exhausted hended hrest, List.append_nil]

/-! ## The schedule of the merged sequence -/

theorem exists_of_nextOf?_eq_some {sources rest : List (List α)} {x : α}
    (h : nextOf? sources = some (x, rest)) :
    ∃ n source, sources[n]? = some (x :: source) ∧ rest = sources.set n source := by
  induction sources generalizing rest with
  | nil => simp [nextOf?] at h
  | cons first others ih =>
    cases first with
    | nil =>
      simp only [nextOf?, Option.map_eq_some_iff] at h
      obtain ⟨⟨y, next⟩, hnext, heq⟩ := h
      cases heq
      obtain ⟨n, source, hn, rfl⟩ := ih hnext
      exact ⟨n + 1, source, by simpa using hn, by simp⟩
    | cons y ys =>
      cases h
      exact ⟨0, ys, by simp, by simp⟩

theorem eq_nil_of_nextOf?_eq_none {sources : List (List α)} (h : nextOf? sources = none) :
    ∀ source ∈ sources, source = [] := by
  induction sources with
  | nil => simp
  | cons first others ih =>
    cases first with
    | nil =>
      simp only [nextOf?, Option.map_eq_none_iff] at h
      simpa using ih h
    | cons x rest => simp [nextOf?] at h

/-- With nothing left in the sources, nothing more is put into the channel. -/
theorem handed_run_of_exhausted (hsources : ∀ source ∈ w.merge.sources, source = [])
    (events : List Event) : (w.run events).handed = w.handed := by
  induction events generalizing w with
  | nil => rfl
  | cons e events ih =>
    rw [run_cons]
    unfold step
    cases hstep : w.step? e with
    | none => exact ih hsources
    | some w' =>
      cases e with
      | put n =>
        obtain ⟨x, rest, -, hsource, -⟩ := put?_eq_some_iff.mp hstep
        exact nomatch hsources _ (List.mem_of_getElem? hsource)
      | close n =>
        obtain ⟨-, -, rfl⟩ := close?_eq_some_iff.mp hstep
        exact ih hsources
      | poll =>
        obtain ⟨-, ⟨x, channel, -, rfl⟩ | ⟨-, -, rfl⟩⟩ := poll?_eq_some_iff.mp hstep
        · exact ih hsources
        · exact ih hsources

theorem drain_of_none {m : Merge α} (hnext : nextOf? m.sources = none) : m.drain = m.channel := by
  rw [drain]
  split
  · rfl
  · simp_all

theorem drain_of_room {m : Merge α} {x : α} {rest : List (List α)}
    (hnext : nextOf? m.sources = some (x, rest)) (hroom : m.channel.length < capacity) :
    m.drain = drain ⟨rest, m.channel ++ [x]⟩ := by
  rw [drain]
  split
  · simp_all
  · simp_all

theorem drain_of_full {m : Merge α} {x : α} {rest : List (List α)}
    (hnext : nextOf? m.sources = some (x, rest)) (hfull : ¬ m.channel.length < capacity) {y : α}
    {channel : List α} (hchannel : m.channel = y :: channel) :
    m.drain = y :: drain { m with channel } := by
  rw [drain]
  split
  · simp_all
  · rw [if_neg hfull]
    split
    · simp_all
    · simp_all

/-- The sources can put in what they can before the reader asks for anything. -/
theorem Sound.exists_run_drain (h : w.Sound sources) (hended : w.ended = false) :
    ∃ events, (w.run events).ended = true ∧
      (w.run events).delivered = w.delivered ++ w.merge.drain := by
  induction hm : w.merge using Merge.drain.induct generalizing w with
  | case1 m hnext =>
    subst hm
    obtain ⟨events, hevents⟩ := h.exists_run_ended
    have hhanded := handed_run_of_exhausted (eq_nil_of_nextOf?_eq_none hnext) events
    refine ⟨events, hevents, ?_⟩
    rw [← ((h.run events).complete hevents).1, hhanded, h.queued, drain_of_none hnext]
  | case2 m x rest hnext hroom ih =>
    subst hm
    obtain ⟨n, source, hsource, rfl⟩ := exists_of_nextOf?_eq_some hnext
    have hput := put?_eq_some_iff.mpr ⟨x, source, hroom, hsource, rfl⟩
    have hstep := step_of_step? (e := .put n) hput
    obtain ⟨events, hevents, hdelivered⟩ := ih (h.put hput) hended rfl
    refine ⟨.put n :: events, ?_⟩
    rw [run_cons, hstep]
    exact ⟨hevents, hdelivered.trans (by rw [drain_of_room hnext hroom])⟩
  | case3 m x rest hnext hfull y channel hchannel ih =>
    subst hm
    have hpoll := poll?_eq_some_iff.mpr ⟨hended, .inl ⟨y, channel, hchannel, rfl⟩⟩
    have hstep := step_of_step? (e := .poll) hpoll
    obtain ⟨events, hevents, hdelivered⟩ := ih (h.poll hpoll) hended rfl
    refine ⟨.poll :: events, ?_⟩
    rw [run_cons, hstep]
    refine ⟨hevents, hdelivered.trans ?_⟩
    rw [drain_of_full hnext hfull hchannel, List.append_assoc, List.singleton_append]
  | case4 m x rest hnext hfull hchannel =>
    exact absurd (by simp [hchannel, capacity]) hfull

/-! ## Every schedule -/

/-- In whatever order sources and reader go on: the channel never holds more than it has room for, what
    each source has put there is a beginning of it, and the reader gets what was put there, the oldest first.
    When the reader sees the end, it has got every element of every source and nothing else, those of each
    source in their order. Until then some step is possible, and there is one step less to do after it, so
    the end is always within reach. What `mergeAll` gives is what one of the schedules delivers. -/
theorem merged_stream_delivers_all (sources : List (List α)) :
    (∀ events,
      let w := (start sources).run events
      w.merge.channel.length ≤ capacity ∧
      w.handed.map (·.2) = w.delivered ++ w.merge.channel ∧
      (∀ n source, sources[n]? = some source → w.handedBy n <+: source) ∧
      (w.ended = true → w.handed.map (·.2) = w.delivered ∧ w.delivered.Perm sources.flatten ∧
        ∀ n source, sources[n]? = some source → w.handedBy n = source) ∧
      (w.ended = false → ∃ e w', w.step? e = some w') ∧
      (∀ e w', w.step? e = some w' → w'.work + 1 = w.work) ∧
      ∃ more, (w.run more).ended = true) ∧
    ∃ events, ((start sources).run events).ended = true ∧
      ((start sources).run events).delivered = mergeAll sources := by
  constructor
  · intro events w
    have hsound : w.Sound sources := (sound_start sources).run events
    refine ⟨hsound.room, hsound.queued, ?_, hsound.complete, hsound.exists_step?,
      fun _ _ => work_of_step?, hsound.exists_run_ended⟩
    intro n source hsource
    rw [hsound.ordered, Option.map_eq_some_iff] at hsource
    obtain ⟨rest, -, rfl⟩ := hsource
    exact List.prefix_append _ _
  · exact (sound_start sources).exists_run_drain rfl

/-- A source with more elements than there is room for waits until the reader takes one, and the elements of
    another source come in between. -/
theorem merged_stream_delivers_all_past_full_channel :
    let sources := [List.replicate 65 0, [1, 2], []]
    let first : List Event := List.replicate 64 (.put 0)
    let others : List Event := [.put 0, .poll, .put 1, .poll, .put 0, .close 0, .poll, .put 1, .close 2,
      .close 1] ++ List.replicate 65 .poll
    let w := (start sources).run (first ++ others)
    ((start sources).run first).put? 0 = none ∧ w.ended = true ∧
      w.delivered = List.replicate 64 0 ++ [1, 0, 2] ∧ w.delivered.Perm sources.flatten ∧
      ∀ n source, sources[n]? = some source → w.handedBy n = source := by
  intro sources first others w
  have hfull : (((start sources).run first).put? 0).isNone = true := by decide +kernel
  have hended : w.ended = true := by decide +kernel
  obtain ⟨-, -, -, hcomplete, -⟩ := (merged_stream_delivers_all sources).1 (first ++ others)
  obtain ⟨-, hperm, hordered⟩ := hcomplete hended
  exact ⟨Option.isNone_iff_eq_none.mp hfull, hended, by decide +kernel, hperm, hordered⟩

end Stream

end Telemetry.Agent.Merge
