-- SUMMARY: Updates of a group under every schedule: when the group succeeds, and whose failure it fails with.
import Mathlib
import Telemetry.Agent.Group

/-!
# Siblings

The providers of a group are updated at the same time: in any order their updates go on, return, or see
that they are cancelled. The first failure cancels the siblings, and some of them fail only for that. In a
small group the first failure is the one the group fails with, so it is never the one of a sibling that was
only cancelled. In a large group the returns are taken in the order of the providers, and then it may be.
-/

namespace Telemetry.Agent

namespace GroupUpdate

-- ---------------------------------------------------------------------------
-- Results
-- ---------------------------------------------------------------------------

theorem Stage.error?_eq_some_iff {stage : Stage} {e : Error} :
    stage.error? = some e ↔ stage = .finished (.error e) := by
  cases stage with
  | finished result => cases result <;> simp [Stage.error?]
  | _ => simp [Stage.error?]

theorem promptVerdict?_eq_ok_iff {stages : List Stage} :
    promptVerdict? stages = some (.ok ()) ↔ ∀ stage ∈ stages, stage = .finished (.ok ()) := by
  unfold promptVerdict?
  cases hfirst : stages.findSome? Stage.error? with
  | some e =>
    obtain ⟨stage, hmem, he⟩ := List.exists_of_findSome?_eq_some hfirst
    rw [Stage.error?_eq_some_iff] at he
    simp only [Option.some.injEq, reduceCtorEq, false_iff]
    intro h
    cases (h stage hmem).symm.trans he
  | none =>
    rw [List.findSome?_eq_none_iff] at hfirst
    simp only [Option.ite_none_right_eq_some, and_true, List.all_eq_true]
    refine forall₂_congr fun stage hmem => ?_
    have hstage := hfirst stage hmem
    cases stage with
    | finished result =>
      cases result with
      | ok _ => simp [Stage.isFinished]
      | error e => simp [Stage.error?] at hstage
    | _ => simp [Stage.isFinished]

theorem promptVerdict?_eq_error {stages : List Stage} {e : Error}
    (h : promptVerdict? stages = some (.error e)) : .finished (.error e) ∈ stages := by
  unfold promptVerdict? at h
  split at h
  · rename_i first hfirst
    obtain ⟨stage, hmem, he⟩ := List.exists_of_findSome?_eq_some hfirst
    rw [Stage.error?_eq_some_iff] at he
    cases h
    exact he ▸ hmem
  · split at h <;> cases h

/-- A failure is the result as soon as it is known. -/
theorem promptVerdict?_ne_none {stages : List Stage} {e : Error}
    (h : .finished (.error e) ∈ stages) : promptVerdict? stages ≠ none := by
  unfold promptVerdict?
  have hfirst : stages.findSome? Stage.error? ≠ none := by
    rw [ne_eq, List.findSome?_eq_none_iff]
    exact fun hnone => nomatch hnone _ h
  split
  · exact nofun
  · rename_i hnone
    exact absurd hnone hfirst

theorem orderedVerdict?_eq_ok_iff {stages : List Stage} :
    orderedVerdict? stages = some (.ok ()) ↔ ∀ stage ∈ stages, stage = .finished (.ok ()) := by
  fun_induction orderedVerdict? stages with
  | case1 => simp
  | case2 rest ih => simpa using ih
  | case3 e rest => simp
  | case4 stage rest hok herror =>
    simp only [reduceCtorEq, List.forall_mem_cons, false_iff, not_and]
    intro heq
    exact absurd heq hok

theorem orderedVerdict?_eq_error {stages : List Stage} {e : Error} :
    orderedVerdict? stages = some (.error e) →
    ∃ n : Nat, stages[n]? = some (Stage.finished (.error e)) ∧
      ∀ m < n, stages[m]? = some (Stage.finished (.ok ())) := by
  fun_induction orderedVerdict? stages with
  | case1 => exact nofun
  | case2 rest ih =>
    intro h
    obtain ⟨n, hn, hbefore⟩ := ih h
    refine ⟨n + 1, by simpa using hn, fun m hm => ?_⟩
    cases m with
    | zero => rfl
    | succ m => simpa using hbefore m (Nat.lt_of_succ_lt_succ hm)
  | case3 e' rest =>
    rintro ⟨⟩
    exact ⟨0, rfl, fun m hm => absurd hm (Nat.not_lt_zero m)⟩
  | case4 => exact nofun

theorem orderedVerdict?_ne_none {stages : List Stage} (h : ∀ stage ∈ stages, stage.isFinished = true) :
    orderedVerdict? stages ≠ none := by
  fun_induction orderedVerdict? stages with
  | case1 => exact nofun
  | case2 rest ih => exact ih fun stage hmem => h stage (List.mem_cons_of_mem _ hmem)
  | case3 => exact nofun
  | case4 stage rest hok herror =>
    have hfinished := h stage List.mem_cons_self
    cases stage with
    | finished result =>
      cases result with
      | ok _ => exact absurd rfl hok
      | error e => exact absurd rfl (herror e)
    | _ => cases hfinished

/-- A group succeeds exactly when all its updates have. -/
theorem verdict?_eq_ok_iff {g : GroupUpdate} :
    g.verdict? = some (.ok ()) ↔ ∀ stage ∈ g.stages, stage = .finished (.ok ()) := by
  unfold verdict?
  split
  · exact promptVerdict?_eq_ok_iff
  · exact orderedVerdict?_eq_ok_iff

/-- When all updates have come to their end, so has the one of the group. -/
theorem verdict?_ne_none {g : GroupUpdate} (h : ∀ stage ∈ g.stages, stage.isFinished = true) :
    g.verdict? ≠ none := by
  unfold verdict?
  split
  · unfold promptVerdict?
    rw [if_pos (List.all_eq_true.mpr h)]
    split <;> exact nofun
  · exact orderedVerdict?_ne_none h

theorem verdict?_ne_none_of_error {g : GroupUpdate} (hsmall : g.stages.length ≤ smallSize) {e : Error}
    (h : .finished (.error e) ∈ g.stages) : g.verdict? ≠ none := by
  unfold verdict?
  rw [if_pos hsmall]
  exact promptVerdict?_ne_none h

end GroupUpdate

/-- A return of the update of a provider. -/
structure Return where
  child : Nat
  result : Outcome Unit
  /-- The update would have returned the same if no failure of a sibling had cancelled it. -/
  unprompted : Bool

namespace Return

def failed (a : Return) : Bool :=
  match a.result with
  | .ok () => false
  | .error _ => true

theorem failed_iff {a : Return} : a.failed = true ↔ ∃ e, a.result = .error e := by
  unfold failed
  cases a.result <;> simp

end Return

/-- The update of a group on its way. -/
structure GroupRun where
  group : GroupUpdate
  metrics : Instances
  /-- The token of the caller is cancelled. -/
  callerCancelled : Bool
  /-- What has been returned so far, the oldest first. -/
  returns : List Return

/-- What can be found when the update of a provider is looked at. -/
abbrev Behaviour := (cancelled : Bool) → Reading → Instances → Option (Outcome Unit) × Instances

/-- What happens while a group is updated. -/
inductive GroupRun.Event where
  /-- The update of a provider is looked at, as far as it has got by then. -/
  | look (n : Nat) (update : Behaviour) (r : Reading)
  /-- The caller cancels. -/
  | cancel

namespace GroupRun

variable (providers : List Provider)

/-- The group before anything is looked at. -/
def start (cancelled : Bool) (t : Instances) : GroupRun :=
  ⟨.start providers.length cancelled, t, cancelled, []⟩

-- ---------------------------------------------------------------------------
-- Steps
-- ---------------------------------------------------------------------------

/-- The providers when the update of one of them has got somewhere. -/
def resumed (n : Nat) (update : Behaviour) : List Provider :=
  providers.modify n fun p => { p with update }

/-- What a look returns, if the update is still going on and returns now. -/
def returned? (w : GroupRun) (n : Nat) (update : Behaviour) (r : Reading) : Option Return :=
  match w.group.verdict?, w.group.stages[n]?, (update w.group.cancelled r w.metrics).1 with
  | none, some stage, some result =>
    if stage.isFinished then none
    else some ⟨n, result, decide ((update w.callerCancelled r w.metrics).1 = some result)⟩
  | _, _, _ => none

def look (w : GroupRun) (n : Nat) (update : Behaviour) (r : Reading) : GroupRun :=
  let s := GroupUpdate.look (resumed providers n update) r (w.group, w.metrics) n
  { w with group := s.1, metrics := s.2, returns := w.returns ++ (w.returned? n update r).toList }

/-- The token of the group is a child of the token of the caller and is cancelled with it. -/
def cancel (w : GroupRun) : GroupRun :=
  { w with group := { w.group with cancelled := true }, callerCancelled := true }

def step (w : GroupRun) : Event → GroupRun
  | .look n update r => w.look providers n update r
  | .cancel => w.cancel

def run (w : GroupRun) (events : List Event) : GroupRun :=
  events.foldl (step providers) w

variable {providers}

theorem run_cons (w : GroupRun) (e : Event) (events : List Event) :
    w.run providers (e :: events) = (w.step providers e).run providers events := rfl

theorem run_append (w : GroupRun) (first others : List Event) :
    w.run providers (first ++ others) = (w.run providers first).run providers others :=
  List.foldl_append

-- ---------------------------------------------------------------------------
-- What a look can do
-- ---------------------------------------------------------------------------

/-- The operation during which the update of a provider fails. -/
def contextOf (p : Provider) : String :=
  "update " ++ p.name ++ " metrics"

theorem note_some (g : GroupUpdate) (n : Nat) (result : Outcome Unit) :
    g.note n (some result) =
      ⟨g.stages.set n (.finished result), g.cancelled || (Return.mk n result true).failed⟩ := by
  cases result with
  | ok _ => simp [GroupUpdate.note, Return.failed]
  | error e => simp [GroupUpdate.note, Return.failed]

theorem resumed_getElem? (n : Nat) (update : Behaviour) :
    (resumed providers n update)[n]? = providers[n]?.map fun p => { p with update } := by
  simp [resumed]

/-- A look changes nothing, or it finds that an update takes its time, or that it returns. It does the latter
    two only while the updates of the group and of this provider have not come to their ends. -/
theorem look_cases {w : GroupRun} (hsize : w.group.stages.length = providers.length) (n : Nat)
    (update : Behaviour) (r : Reading) :
    w.look providers n update r = w ∨
    (∃ stage t, w.group.stages[n]? = some stage ∧ stage.isFinished = false ∧
      w.look providers n update r =
        { w with
          group := { w.group with stages := w.group.stages.set n .waiting }
          metrics := t }) ∨
    ∃ stage p result t, w.group.verdict? = none ∧ w.group.stages[n]? = some stage ∧
      stage.isFinished = false ∧ providers[n]? = some p ∧
      (update w.group.cancelled r w.metrics).1 = some result ∧
      w.look providers n update r =
        { w with
          group := w.group.note n (some (within (contextOf p) result))
          metrics := t
          returns := w.returns ++
            [⟨n, result, decide ((update w.callerCancelled r w.metrics).1 = some result)⟩] } := by
  unfold look GroupUpdate.look returned?
  dsimp only
  rw [resumed_getElem?]
  cases hverdict : w.group.verdict? with
  | some result => exact .inl (by simp)
  | none =>
    cases hstage : w.group.stages[n]? with
    | none => exact .inl (by cases providers[n]? <;> simp)
    | some stage =>
      have hn : n < providers.length := hsize ▸ (List.getElem?_eq_some_iff.mp hstage).1
      have hp : providers[n]? = some providers[n] := List.getElem?_eq_getElem hn
      cases hfinished : stage.isFinished with
      | true => exact .inl (by cases (update w.group.cancelled r w.metrics).1 <;> simp [hp, hfinished])
      | false =>
        cases hfound : (update w.group.cancelled r w.metrics).1 with
        | none =>
          refine .inr (.inl ⟨stage, (update w.group.cancelled r w.metrics).2, rfl, hfinished, ?_⟩)
          simp [hp, hfinished, hfound, GroupUpdate.note]
        | some result =>
          refine .inr (.inr ⟨stage, providers[n], result, (update w.group.cancelled r w.metrics).2, rfl,
            rfl, hfinished, hp, rfl, ?_⟩)
          simp [hp, hfinished, hfound, contextOf]

-- ---------------------------------------------------------------------------
-- The invariant
-- ---------------------------------------------------------------------------

/-- The returns are the stages that are finished, one for each; the group is cancelled by its caller or by a
    failure; the first failure is not for being cancelled by a sibling, and in a small group there is no
    other one. -/
structure Sound (providers : List Provider) (w : GroupRun) : Prop where
  size : w.group.stages.length = providers.length
  stage : ∀ a ∈ w.returns, ∃ p, providers[a.child]? = some p ∧
    w.group.stages[a.child]? = some (.finished (within (contextOf p) a.result))
  returned : ∀ n outcome, w.group.stages[n]? = some (.finished outcome) → ∃ a ∈ w.returns, a.child = n
  once : (w.returns.map (·.child)).Nodup
  cancelled : w.group.cancelled = (w.callerCancelled || w.returns.any (·.failed))
  first : ∀ a, w.returns.find? (·.failed) = some a → a.unprompted = true
  alone : providers.length ≤ GroupUpdate.smallSize → (w.returns.filter (·.failed)).length ≤ 1

theorem sound_start (cancelled : Bool) (t : Instances) : (start providers cancelled t).Sound providers where
  size := by simp [start, GroupUpdate.start]
  stage := nofun
  returned := by simp [start, GroupUpdate.start, List.getElem?_replicate]
  once := List.nodup_nil
  cancelled := by simp [start, GroupUpdate.start]
  first := nofun
  alone := fun _ => Nat.zero_le 1

variable {w : GroupRun}

/-- While the update of a small group goes on, none of its updates has failed. -/
theorem Sound.not_failed_of_small (h : w.Sound providers)
    (hsmall : providers.length ≤ GroupUpdate.smallSize) (hverdict : w.group.verdict? = none) :
    ∀ a ∈ w.returns, a.failed = false := by
  intro a ha
  by_contra hfailed
  obtain ⟨e, he⟩ := Return.failed_iff.mp (by simpa using hfailed)
  obtain ⟨p, -, hstage⟩ := h.stage a ha
  rw [he] at hstage
  exact GroupUpdate.verdict?_ne_none_of_error (h.size ▸ hsmall) (List.mem_of_getElem? hstage) hverdict

/-- An update whose stage is not finished has not returned. -/
theorem Sound.not_returned (h : w.Sound providers) {n : Nat} {stage : Stage}
    (hstage : w.group.stages[n]? = some stage) (hunfinished : stage.isFinished = false) :
    ∀ a ∈ w.returns, a.child ≠ n := by
  rintro a ha rfl
  obtain ⟨p, -, hfinished⟩ := h.stage a ha
  rw [hstage, Option.some.injEq] at hfinished
  rw [hfinished] at hunfinished
  cases hunfinished

/-- An update that has not returned goes on. -/
theorem Sound.wait (h : w.Sound providers) {n : Nat} {stage : Stage}
    (hstage : w.group.stages[n]? = some stage) (hunfinished : stage.isFinished = false) (t : Instances) :
    ({ w with
      group := { w.group with stages := w.group.stages.set n .waiting }
      metrics := t } : GroupRun).Sound providers where
  size := by simpa using h.size
  stage := by
    intro a ha
    obtain ⟨p, hp, hfinished⟩ := h.stage a ha
    have hne := h.not_returned hstage hunfinished a ha
    exact ⟨p, hp, by simpa [List.getElem?_set_ne hne.symm] using hfinished⟩
  returned := by
    intro k outcome hk
    by_cases hnk : n = k
    · subst hnk
      have hn := (List.getElem?_eq_some_iff.mp hstage).1
      simp [List.getElem?_set_self hn] at hk
    · exact h.returned k outcome (by simpa [List.getElem?_set_ne hnk] using hk)
  once := h.once
  cancelled := h.cancelled
  first := h.first
  alone := h.alone

/-- An update returns. -/
theorem Sound.return (h : w.Sound providers) {n : Nat} {stage : Stage} {p : Provider}
    {result : Outcome Unit} {unprompted : Bool} (hverdict : w.group.verdict? = none)
    (hstage : w.group.stages[n]? = some stage) (hunfinished : stage.isFinished = false)
    (hp : providers[n]? = some p)
    (hunprompted : w.group.cancelled = w.callerCancelled → unprompted = true) (t : Instances) :
    ({ w with
      group := w.group.note n (some (within (contextOf p) result))
      metrics := t
      returns := w.returns ++ [⟨n, result, unprompted⟩] } : GroupRun).Sound providers := by
  have hn := (List.getElem?_eq_some_iff.mp hstage).1
  have hnew := h.not_returned hstage hunfinished
  have hfailed : (Return.mk n (within (contextOf p) result) true).failed =
      (Return.mk n result unprompted).failed := by
    cases result <;> rfl
  rw [note_some]
  refine ⟨?size, ?stage, ?returned, ?once, ?cancelled, ?first, ?alone⟩
  case size => simpa using h.size
  case stage =>
    intro a ha
    obtain ha | ha := List.mem_append.mp ha
    · obtain ⟨q, hq, hfinished⟩ := h.stage a ha
      exact ⟨q, hq, by simpa [List.getElem?_set_ne (hnew a ha).symm] using hfinished⟩
    · obtain rfl := List.mem_singleton.mp ha
      exact ⟨p, hp, List.getElem?_set_self hn⟩
  case returned =>
    intro k outcome hk
    by_cases hnk : n = k
    · exact ⟨_, List.mem_append_right _ (List.mem_singleton_self _), hnk⟩
    · obtain ⟨a, ha, hchild⟩ := h.returned k outcome (by simpa [List.getElem?_set_ne hnk] using hk)
      exact ⟨a, List.mem_append_left _ ha, hchild⟩
  case once =>
    rw [List.map_append, List.nodup_append]
    refine ⟨h.once, List.nodup_singleton _, ?_⟩
    rintro k hk k' hk' rfl
    obtain ⟨a, ha, rfl⟩ := List.mem_map.mp hk
    exact hnew a ha (List.mem_singleton.mp hk')
  case cancelled =>
    simp [h.cancelled, hfailed, Bool.or_assoc]
  case first =>
    intro a ha
    rw [List.find?_append, Option.or_eq_some_iff] at ha
    obtain ha | ⟨hnone, ha⟩ := ha
    · exact h.first a ha
    · have hclean : w.returns.any (·.failed) = false := by
        simpa using hnone
      obtain rfl := List.mem_singleton.mp (List.mem_of_find?_eq_some ha)
      exact hunprompted (by rw [h.cancelled, hclean, Bool.or_false])
  case alone =>
    intro hsmall
    have hnone : w.returns.filter (·.failed) = [] := by
      simpa using h.not_failed_of_small hsmall hverdict
    rw [List.filter_append, hnone, List.nil_append]
    exact List.length_filter_le _ _

theorem Sound.look (h : w.Sound providers) (n : Nat) (update : Behaviour) (r : Reading) :
    (w.look providers n update r).Sound providers := by
  obtain hsame | ⟨stage, t, hstage, hunfinished, hwait⟩ |
    ⟨stage, p, result, t, hverdict, hstage, hunfinished, hp, hfound, hreturn⟩ :=
    look_cases h.size n update r
  · rw [hsame]
    exact h
  · exact hwait ▸ h.wait hstage hunfinished t
  · refine hreturn ▸ h.return hverdict hstage hunfinished hp (fun hcancelled => ?_) t
    rw [← hcancelled]
    exact decide_eq_true hfound

theorem Sound.cancel (h : w.Sound providers) : w.cancel.Sound providers :=
  ⟨h.size, h.stage, h.returned, h.once, rfl, h.first, h.alone⟩

theorem Sound.step (h : w.Sound providers) (e : Event) : (w.step providers e).Sound providers := by
  cases e with
  | look n update r => exact h.look n update r
  | cancel => exact h.cancel

theorem Sound.run (h : w.Sound providers) (events : List Event) :
    (w.run providers events).Sound providers := by
  induction events generalizing w with
  | nil => exact h
  | cons e events ih => exact ih (h.step e)

/-- Only the caller cancels its token. -/
theorem callerCancelled_run (w : GroupRun) (events : List Event) :
    (w.run providers events).callerCancelled = true ↔ w.callerCancelled = true ∨ .cancel ∈ events := by
  induction events generalizing w with
  | nil => simp [GroupRun.run]
  | cons e events ih =>
    rw [run_cons, ih]
    cases e with
    | look n update r => simp [GroupRun.step, GroupRun.look]
    | cancel => simp [GroupRun.step, GroupRun.cancel]

-- ---------------------------------------------------------------------------
-- The result
-- ---------------------------------------------------------------------------

theorem Sound.eq_of_child (h : w.Sound providers) {a b : Return} (ha : a ∈ w.returns)
    (hb : b ∈ w.returns) (hchild : a.child = b.child) : a = b :=
  List.inj_on_of_nodup_map h.once ha hb hchild

/-- The stage of a provider shows what its update has returned. -/
theorem Sound.exists_return (h : w.Sound providers) {n : Nat} {outcome : Outcome Unit}
    (hstage : w.group.stages[n]? = some (.finished outcome)) :
    ∃ a ∈ w.returns, a.child = n ∧ ∃ p, providers[n]? = some p ∧
      outcome = within (contextOf p) a.result := by
  obtain ⟨a, ha, rfl⟩ := h.returned n outcome hstage
  obtain ⟨p, hp, hfinished⟩ := h.stage a ha
  rw [hstage] at hfinished
  cases hfinished
  exact ⟨a, ha, rfl, p, hp, rfl⟩

theorem within_eq_ok_iff {context : String} {result : Outcome Unit} :
    within context result = .ok () ↔ result = .ok () := by
  cases result <;> simp [within, Except.mapError]

theorem within_eq_error_iff {context : String} {result : Outcome Unit} {e : Error} :
    within context result = .error e ↔ ∃ cause, result = .error cause ∧ e = cause.within context := by
  cases result <;> simp [within, Except.mapError, eq_comm]

theorem Sound.verdict?_eq_ok_iff (h : w.Sound providers) :
    w.group.verdict? = some (.ok ()) ↔
      ∀ n < providers.length, ∃ a ∈ w.returns, a.child = n ∧ a.result = .ok () := by
  rw [GroupUpdate.verdict?_eq_ok_iff]
  constructor
  · intro hstages n hn
    have hlt : n < w.group.stages.length := h.size ▸ hn
    have hstage := hstages _ (List.getElem_mem hlt)
    obtain ⟨a, ha, hchild, p, -, hresult⟩ :=
      h.exists_return (List.getElem?_eq_some_iff.mpr ⟨hlt, hstage⟩)
    exact ⟨a, ha, hchild, within_eq_ok_iff.mp hresult.symm⟩
  · intro hreturns stage hmem
    obtain ⟨n, hn⟩ := List.mem_iff_getElem?.mp hmem
    obtain ⟨a, ha, rfl, hresult⟩ := hreturns n (h.size ▸ (List.getElem?_eq_some_iff.mp hn).1)
    obtain ⟨p, -, hstage⟩ := h.stage a ha
    rw [hn, hresult] at hstage
    exact Option.some.inj hstage

theorem Sound.verdict?_ne_none (h : w.Sound providers)
    (hreturns : ∀ n < providers.length, ∃ a ∈ w.returns, a.child = n) : w.group.verdict? ≠ none := by
  refine GroupUpdate.verdict?_ne_none fun stage hmem => ?_
  obtain ⟨n, hn⟩ := List.mem_iff_getElem?.mp hmem
  obtain ⟨a, ha, rfl⟩ := hreturns n (h.size ▸ (List.getElem?_eq_some_iff.mp hn).1)
  obtain ⟨p, -, hstage⟩ := h.stage a ha
  rw [hn, Option.some.injEq] at hstage
  exact hstage ▸ rfl

/-- If an update has failed, some update was the first to fail, and not for a sibling. -/
theorem Sound.exists_first (h : w.Sound providers) {a : Return} (ha : a ∈ w.returns)
    (hfailed : a.failed = true) :
    ∃ b ∈ w.returns, b.failed = true ∧ b.unprompted = true := by
  cases hfirst : w.returns.find? (·.failed) with
  | none => exact absurd hfailed (List.find?_eq_none.mp hfirst a ha)
  | some b =>
    exact ⟨b, List.mem_of_find?_eq_some hfirst, List.find?_some hfirst, h.first b hfirst⟩

/-- In a small group no more than one update fails. -/
theorem Sound.eq_of_failed (h : w.Sound providers) (hsmall : providers.length ≤ GroupUpdate.smallSize)
    {a b : Return} (ha : a ∈ w.returns) (hb : b ∈ w.returns) (hfailed : a.failed = true)
    (hfailed' : b.failed = true) : b = a := by
  have hmem : a ∈ w.returns.filter (·.failed) := List.mem_filter.mpr ⟨ha, hfailed⟩
  have hmem' : b ∈ w.returns.filter (·.failed) := List.mem_filter.mpr ⟨hb, hfailed'⟩
  have hlength := h.alone hsmall
  generalize w.returns.filter (·.failed) = failures at hmem hmem' hlength
  match failures, hlength with
  | [c], _ => rw [List.mem_singleton.mp hmem, List.mem_singleton.mp hmem']

/-- The group fails with the failure of one of its providers: in a small group with the only one there is,
    in a large group with the one that comes first in the order of the providers. -/
theorem Sound.exists_of_verdict?_eq_error (h : w.Sound providers) {e : Error}
    (hverdict : w.group.verdict? = some (.error e)) :
    ∃ a ∈ w.returns, ∃ p cause, providers[a.child]? = some p ∧ a.result = .error cause ∧
      e = cause.within (contextOf p) ∧
      if providers.length ≤ GroupUpdate.smallSize then
        ∀ b ∈ w.returns, b.failed = true → b = a
      else ∀ n < a.child, ∃ b ∈ w.returns, b.child = n ∧ b.result = .ok () := by
  unfold GroupUpdate.verdict? at hverdict
  rw [h.size] at hverdict
  by_cases hsmall : providers.length ≤ GroupUpdate.smallSize
  · simp only [hsmall, if_true] at hverdict ⊢
    obtain ⟨n, hstage⟩ := List.mem_iff_getElem?.mp (GroupUpdate.promptVerdict?_eq_error hverdict)
    obtain ⟨a, ha, rfl, p, hp, herror⟩ := h.exists_return hstage
    obtain ⟨cause, hcause, rfl⟩ := within_eq_error_iff.mp herror.symm
    have hfailed : a.failed = true := Return.failed_iff.mpr ⟨cause, hcause⟩
    exact ⟨a, ha, p, cause, hp, hcause, rfl, fun b hb hfailed' => h.eq_of_failed hsmall ha hb hfailed hfailed'⟩
  · simp only [hsmall, if_false] at hverdict ⊢
    obtain ⟨n, hstage, hbefore⟩ := GroupUpdate.orderedVerdict?_eq_error hverdict
    obtain ⟨a, ha, rfl, p, hp, herror⟩ := h.exists_return hstage
    obtain ⟨cause, hcause, rfl⟩ := within_eq_error_iff.mp herror.symm
    refine ⟨a, ha, p, cause, hp, hcause, rfl, fun m hm => ?_⟩
    obtain ⟨b, hb, hchild, q, -, hresult⟩ := h.exists_return (hbefore m hm)
    exact ⟨b, hb, hchild, within_eq_ok_iff.mp hresult.symm⟩

-- ---------------------------------------------------------------------------
-- The schedule in turns
-- ---------------------------------------------------------------------------

/-- A look at a provider as it is. -/
def lookAt (providers : List Provider) (r : Reading) (n : Nat) : Event :=
  .look n (((providers[n]?).map (·.update)).getD fun _ _ t => (none, t)) r

theorem resumed_self (providers : List Provider) (n : Nat) :
    resumed providers n (((providers[n]?).map (·.update)).getD fun _ _ t => (none, t)) = providers := by
  refine List.ext_getElem? fun k => ?_
  unfold resumed
  rw [List.getElem?_modify]
  by_cases hnk : n = k
  · subst hnk
    cases hp : providers[n]? <;> simp
  · simp [hnk]

theorem step_lookAt (w : GroupRun) (r : Reading) (n : Nat) :
    ((w.step providers (lookAt providers r n)).group, (w.step providers (lookAt providers r n)).metrics) =
      GroupUpdate.look providers r (w.group, w.metrics) n := by
  unfold lookAt GroupRun.step GroupRun.look
  dsimp only
  rw [resumed_self]

/-- Looks at all providers in turn. -/
def turns (providers : List Provider) (r : Reading) (count : Nat) : List Event :=
  (List.replicate count ((List.range providers.length).map (lookAt providers r))).flatten

theorem run_map_lookAt (w : GroupRun) (r : Reading) (ns : List Nat) :
    ((w.run providers (ns.map (lookAt providers r))).group,
      (w.run providers (ns.map (lookAt providers r))).metrics) =
      ns.foldl (GroupUpdate.look providers r) (w.group, w.metrics) := by
  induction ns generalizing w with
  | nil => rfl
  | cons n ns ih =>
    rw [List.map_cons, run_cons, ih, step_lookAt]
    rfl

theorem run_turns (w : GroupRun) (r : Reading) (count : Nat) :
    ((w.run providers (turns providers r count)).group, (w.run providers (turns providers r count)).metrics) =
      GroupUpdate.rounds providers r count (w.group, w.metrics) := by
  induction count generalizing w with
  | zero => rfl
  | succ count ih =>
    unfold turns at ih ⊢
    rw [List.replicate_succ, List.flatten_cons, run_append, ih, run_map_lookAt]
    rfl

theorem cancel_not_mem_turns (r : Reading) (count : Nat) : Event.cancel ∉ turns providers r count := by
  simp [turns, lookAt]

-- ---------------------------------------------------------------------------
-- Every schedule
-- ---------------------------------------------------------------------------

/-- In whatever order the updates of a group go on, return, or see that they are cancelled: the group
    succeeds exactly when each of them has, and it has come to its end when all of them have, in a small
    group also when one has failed. It fails with the failure of one of its providers, told with the name
    of the provider, and is then cancelled for those that still go on, while the token of its caller is
    cancelled by the caller alone. In a small group this failure is the only one and not for being
    cancelled by a sibling. In a large group it is the first one in the order of the providers; if it is for
    being cancelled, a provider behind it has failed before, and not for that. The update of a group in
    turns is one of the schedules. -/
theorem group_fails_unprompted_unless_large (providers : List Provider) (cancelled : Bool) (t : Instances) :
    (∀ events,
      let w := (start providers cancelled t).run providers events
      (w.group.verdict? = some (.ok ()) ↔
        ∀ n < providers.length, ∃ a ∈ w.returns, a.child = n ∧ a.result = .ok ()) ∧
      ((∀ n < providers.length, ∃ a ∈ w.returns, a.child = n) → w.group.verdict? ≠ none) ∧
      (providers.length ≤ GroupUpdate.smallSize → (∃ a ∈ w.returns, a.failed = true) →
        w.group.verdict? ≠ none) ∧
      (∀ e, w.group.verdict? = some (.error e) →
        ∃ a ∈ w.returns, ∃ p cause, providers[a.child]? = some p ∧ a.result = .error cause ∧
          e = cause.within ("update " ++ p.name ++ " metrics") ∧
          (providers.length ≤ GroupUpdate.smallSize →
            a.unprompted = true ∧ ∀ b ∈ w.returns, b.failed = true → b = a) ∧
          (GroupUpdate.smallSize < providers.length →
            ∀ n < a.child, ∃ b ∈ w.returns, b.child = n ∧ b.result = .ok ()) ∧
          (a.unprompted = false → GroupUpdate.smallSize < providers.length ∧
            ∃ b ∈ w.returns, b.failed = true ∧ b.unprompted = true ∧ a.child < b.child) ∧
          w.group.cancelled = true) ∧
      (w.callerCancelled = true ↔ cancelled = true ∨ .cancel ∈ events)) ∧
    ∀ r, ∃ events, .cancel ∉ events ∧
      (((start providers cancelled t).run providers events).group,
        ((start providers cancelled t).run providers events).metrics) =
        updateGroup providers cancelled r t := by
  refine ⟨fun events => ?_, fun r => ⟨_, cancel_not_mem_turns r _, run_turns _ r _⟩⟩
  intro w
  have hsound : w.Sound providers := (sound_start cancelled t).run events
  refine ⟨hsound.verdict?_eq_ok_iff, hsound.verdict?_ne_none, ?_, fun e hverdict => ?_,
    callerCancelled_run _ events⟩
  · rintro hsmall ⟨a, ha, hfailed⟩ hverdict
    exact absurd hfailed (by simpa using hsound.not_failed_of_small hsmall hverdict a ha)
  · obtain ⟨a, ha, p, cause, hp, hcause, rfl, hplace⟩ := hsound.exists_of_verdict?_eq_error hverdict
    have hfailed : a.failed = true := Return.failed_iff.mpr ⟨cause, hcause⟩
    obtain ⟨b, hb, hfailed', hunprompted⟩ := hsound.exists_first ha hfailed
    have hcancelled : w.group.cancelled = true := by
      rw [hsound.cancelled, List.any_eq_true.mpr ⟨a, ha, hfailed⟩, Bool.or_true]
    refine ⟨a, ha, p, cause, hp, hcause, rfl, fun hsmall => ?_, fun hlarge => ?_, fun hprompted => ?_,
      hcancelled⟩
    · rw [if_pos hsmall] at hplace
      exact ⟨hplace b hb hfailed' ▸ hunprompted, hplace⟩
    · rwa [if_neg (Nat.not_le.mpr hlarge)] at hplace
    · have hne : b ≠ a := by
        rintro rfl
        cases hunprompted.symm.trans hprompted
      by_cases hsmall : providers.length ≤ GroupUpdate.smallSize
      · rw [if_pos hsmall] at hplace
        exact absurd (hplace b hb hfailed') hne
      · rw [if_neg hsmall] at hplace
        refine ⟨Nat.not_le.mp hsmall, b, hb, hfailed', hunprompted, Nat.not_le.mp fun hle => ?_⟩
        obtain hlt | heq := Nat.lt_or_eq_of_le hle
        · obtain ⟨c, hc, hchild, hok⟩ := hplace b.child hlt
          obtain rfl := hsound.eq_of_child hc hb hchild
          obtain ⟨cause', hcause'⟩ := Return.failed_iff.mp hfailed'
          cases hok.symm.trans hcause'
        · exact hne (hsound.eq_of_child hb ha heq)

/-- A provider whose updates take their time until they are cancelled. -/
def patient : Provider :=
  ⟨"patient", [], fun cancelled _ t => (if cancelled then some (fail .cancelled) else none, t)⟩

/-- A provider whose updates fail. -/
def broken : Provider :=
  ⟨"broken", [], fun _ _ t => (some (fail (.internal "probe unavailable")), t)⟩

def someReading : Reading :=
  ⟨.zero, ⟨0, 0, .zero, 0, 0, 0, 0⟩, ⟨0, 0, []⟩⟩

/-- Of two providers that go on and one that fails, the group fails with the failure of the last. -/
theorem group_fails_unprompted_among_three :
    let providers := [patient, .measuring "ready" [], broken]
    let w := (start providers false .empty).run providers (turns providers someReading 2)
    w.group.verdict? = some (.error ⟨["update broken metrics"], .internal "probe unavailable"⟩) ∧
      providers.length ≤ GroupUpdate.smallSize ∧
      ∃ a ∈ w.returns, a.result = fail (.internal "probe unavailable") ∧ a.unprompted = true ∧
        ∀ b ∈ w.returns, b.failed = true → b = a := by
  intro providers w
  have hverdict : w.group.verdict? =
      some (.error ⟨["update broken metrics"], .internal "probe unavailable"⟩) := by
    decide +kernel
  have hsmall : providers.length ≤ GroupUpdate.smallSize := by decide
  obtain ⟨-, -, -, hfails, -⟩ :=
    (group_fails_unprompted_unless_large providers false .empty).1 (turns providers someReading 2)
  obtain ⟨a, ha, p, cause, -, hcause, heq, halone, -⟩ := hfails _ hverdict
  refine ⟨hverdict, hsmall, a, ha, ?_, halone hsmall⟩
  obtain ⟨contexts, cause⟩ := cause
  obtain rfl : contexts = [] := (List.cons.inj (congrArg Error.contexts heq)).2.symm
  obtain rfl : cause = .internal "probe unavailable" := (congrArg Error.cause heq).symm
  exact hcause

/-- Of thirty-one providers the last one fails, and the first one returns only when it is cancelled for
    that. The group fails with the latter, and its caller has not cancelled anything. -/
theorem large_group_fails_with_cancelled_sibling :
    let providers := patient :: List.replicate 29 (.measuring "ready" []) ++ [broken]
    let w := (start providers false .empty).run providers (turns providers someReading 2)
    w.group.verdict? = some (.error ⟨["update patient metrics"], .cancelled⟩) ∧
      w.callerCancelled = false ∧
      (∃ a ∈ w.returns, a.child = 30 ∧ a.result = fail (.internal "probe unavailable") ∧
        a.unprompted = true) ∧
      (∃ a ∈ w.returns, a.child = 0 ∧ a.result = fail .cancelled ∧ a.unprompted = false) ∧
      ((Provider.group providers).update false someReading .empty).1 =
        some (.error ⟨["update patient metrics"], .cancelled⟩) := by
  decide +kernel

end GroupRun

end Telemetry.Agent
