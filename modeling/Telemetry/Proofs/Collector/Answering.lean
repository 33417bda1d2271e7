-- SUMMARY: Answers made from shared instances: each is read once for the value and once for the signature, and verifies if nothing that is signed changed in between.
import Telemetry.Collector.Basic
import Telemetry.Proofs.Metric.CanonicalText
import Telemetry.Proofs.Store.Refusal
import Telemetry.Proofs.Store.Sharing
import Telemetry.Proofs.Wire.Tampering

/-!
# Answers made from shared instances

By the time a collector makes records of stored instances the lock of the storage is free again, and other
requests go on updating these instances. Each of them is read twice, for the value that its record shows
and for the text that is signed. The names and kinds of the two readings are the same, but the values need
not be: an update in between leaves a record whose signature belongs to another value.
-/

namespace Telemetry

namespace MemoryStore

/-- A change leaves every instance its kind and its name. -/
theorem get?_change (p : MemoryStore × Instances) (c : Change) {h : Handle} {m : Metric}
    (hm : p.2.get? h = some m) :
    ∃ m', (change p c).2.get? h = some m' ∧ m'.kind = m.kind ∧ m'.name = m.name := by
  have hupdate : ∀ (other : Handle) {f : Value → Value}, (∀ v, (f v).kind = v.kind) →
      ∃ m', (p.2.update other f).get? h = some m' ∧ m'.kind = m.kind ∧ m'.name = m.name := by
    intro other f hf
    rw [Instances.get?_update, hm]
    split
    · exact ⟨m.update f, rfl, hf m.value, rfl⟩
    · exact ⟨m, rfl, rfl, rfl⟩
  cases c with
  | make new =>
    simp only [change, Instances.alloc_eq]
    exact ⟨m, (Instances.get?_append_of_lt (Instances.lt_size_of_get? hm) [new]).trans hm, rfl, rfl⟩
  | add handles => exact get?_add p.1 handles hm
  | restore snapshot =>
    simp only [change]
    split
    · rename_i restored hrestore
      obtain ⟨metrics, -, rfl⟩ := restore_eq_ok_iff.mp hrestore
      exact ⟨m, get?_ofMetrics hm metrics, rfl, rfl⟩
    · exact ⟨m, hm, rfl, rfl⟩
  | set other x => exact hupdate other (Value.kind_set x)
  | apply other update => exact hupdate other (Value.kind_apply update)
  | settle other sent => exact hupdate other (Value.kind_settle sent)
  | reset other => exact hupdate other Value.kind_reset

end MemoryStore

namespace Collector

/-! ## Reading twice -/

/-- A request that makes records of shared instances, one after the other. -/
structure Answering where
  memory : MemoryStore
  instances : Instances
  /-- The instances that have no record yet. -/
  waiting : List Handle
  /-- The first of them as it was read for the value of its record. -/
  shown : Option Metric
  /-- What was read for the value and for the signature of every record. -/
  readings : List (Metric × Metric)

namespace Answering

/-- What happens while a request makes its records. -/
inductive Event where
  /-- The request reads the instance whose turn it is. -/
  | read
  /-- Other requests, or holders of instances, change the store. -/
  | change (c : MemoryStore.Change)

/-- The request before its first reading. -/
def start (memory : MemoryStore) (instances : Instances) (handles : List Handle) : Answering :=
  ⟨memory, instances, handles, none, []⟩

/-- Read the first instance, for the value of its record or else for the signature. -/
def read (w : Answering) : Answering :=
  match w.waiting with
  | [] => w
  | h :: rest =>
    match w.instances.get? h, w.shown with
    | none, _ => { w with waiting := rest, shown := none }
    | some m, none => { w with shown := some m }
    | some m, some shown =>
      { w with waiting := rest, shown := none, readings := w.readings ++ [(shown, m)] }

def step (w : Answering) : Event → Answering
  | .read => w.read
  | .change c =>
    let (memory, instances) := MemoryStore.change (w.memory, w.instances) c
    { w with memory, instances }

def run (w : Answering) (events : List Event) : Answering :=
  events.foldl step w

/-- The records that have been made. -/
def records (w : Answering) (c : Wire.Converter) : Outcome (List Wire.Record) :=
  w.readings.mapM fun (shown, signed) => c.encodeReadings shown signed

/-! ## What two readings have in common -/

/-- The instance behind a handle has a name. -/
def Named (t : Instances) (h : Handle) : Prop :=
  ∃ m, t.get? h = some m ∧ m.name ≠ ""

/-- The readings have the same name, which is not empty, and the same kind. -/
def Alike (shown signed : Metric) : Prop :=
  shown.name ≠ "" ∧ signed.name = shown.name ∧ signed.kind = shown.kind

/-- The two readings of every instance are related, and so are the first reading and the present state of
the instance that has been read once. -/
structure Relates (R : Metric → Metric → Prop) (w : Answering) : Prop where
  shown : ∀ shown ∈ w.shown, ∀ h ∈ w.waiting.head?, ∃ m, w.instances.get? h = some m ∧ R shown m
  readings : ∀ p ∈ w.readings, R p.1 p.2

theorem relates_start (R : Metric → Metric → Prop) (memory : MemoryStore) (t : Instances)
    (handles : List Handle) : (start memory t handles).Relates R :=
  ⟨fun _ h => (nomatch h), fun _ h => (nomatch h)⟩

theorem Relates.read {R : Metric → Metric → Prop} {w : Answering} (hw : w.Relates R)
    (hR : ∀ h ∈ w.waiting, ∀ m, w.instances.get? h = some m → R m m) : w.read.Relates R := by
  unfold Answering.read
  split
  · exact hw
  · rename_i h rest hwaiting
    split
    · exact ⟨fun _ h => (nomatch h), hw.readings⟩
    · rename_i m hm _
      refine ⟨fun shown hshown other hother => ?_, hw.readings⟩
      cases hshown
      rw [hwaiting] at hother
      cases hother
      exact ⟨m, hm, hR h (hwaiting ▸ List.mem_cons_self) m hm⟩
    · rename_i m shown hm hshown
      obtain ⟨m', hm', hrelated⟩ := hw.shown shown hshown h (hwaiting ▸ rfl)
      cases hm.symm.trans hm'
      refine ⟨fun _ h => (nomatch h), fun p hp => ?_⟩
      rcases List.mem_append.mp hp with hp | hp
      · exact hw.readings p hp
      · obtain rfl := List.mem_singleton.mp hp
        exact hrelated

/-- A reading takes no instance but the first off the list. -/
theorem waiting_read_subset (w : Answering) : w.read.waiting ⊆ w.waiting := by
  unfold Answering.read
  split
  · exact List.Subset.refl _
  · rename_i h rest hwaiting
    split
    · exact hwaiting ▸ List.subset_cons_self h rest
    · exact List.Subset.refl _
    · exact hwaiting ▸ List.subset_cons_self h rest

theorem instances_read (w : Answering) : w.read.instances = w.instances := by
  unfold Answering.read
  repeat' split
  all_goals rfl

theorem named_step {w : Answering} (hnamed : ∀ h ∈ w.waiting, Named w.instances h) (e : Event) :
    ∀ h ∈ (w.step e).waiting, Named (w.step e).instances h := by
  cases e with
  | read =>
    intro h hh
    obtain ⟨m, hm, hname⟩ := hnamed h (waiting_read_subset w hh)
    exact ⟨m, (congrArg (·.get? h) (instances_read w)).trans hm, hname⟩
  | change c =>
    intro h hh
    obtain ⟨m, hm, hname⟩ := hnamed h hh
    obtain ⟨m', hm', -, hname'⟩ := MemoryStore.get?_change (w.memory, w.instances) c hm
    exact ⟨m', hm', hname'.symm ▸ hname⟩

theorem Relates.alike_step {w : Answering} (hw : w.Relates Alike)
    (hnamed : ∀ h ∈ w.waiting, Named w.instances h) (e : Event) : (w.step e).Relates Alike := by
  cases e with
  | read =>
    refine hw.read fun h hh m hm => ?_
    obtain ⟨m', hm', hname⟩ := hnamed h hh
    cases hm.symm.trans hm'
    exact ⟨hname, rfl, rfl⟩
  | change c =>
    refine ⟨fun shown hshown h hh => ?_, hw.readings⟩
    obtain ⟨m, hm, hne, hname, hkind⟩ := hw.shown shown hshown h hh
    obtain ⟨m', hm', hkind', hname'⟩ := MemoryStore.get?_change (w.memory, w.instances) c hm
    exact ⟨m', hm', hne, hname'.trans hname, hkind'.trans hkind⟩

/-- Whatever happens in between, the readings of an instance have its name and its kind. -/
theorem Relates.alike_run {w : Answering} (hw : w.Relates Alike)
    (hnamed : ∀ h ∈ w.waiting, Named w.instances h) (events : List Event) :
    (w.run events).Relates Alike := by
  induction events generalizing w with
  | nil => exact hw
  | cons e events ih => exact ih (hw.alike_step hnamed e) (named_step hnamed e)

/-- The event does not change the instance that has been read once. -/
def Spares (w : Answering) : Event → Prop
  | .read => True
  | .change c => w.shown.isSome → ∀ h ∈ w.waiting.head?,
      (MemoryStore.change (w.memory, w.instances) c).2.get? h = w.instances.get? h

/-- No event of the list changes an instance between its two readings. -/
def Spared (w : Answering) : List Event → Prop
  | [] => True
  | e :: events => w.Spares e ∧ (w.step e).Spared events

theorem Relates.eq_step {w : Answering} (hw : w.Relates Eq) {e : Event} (he : w.Spares e) :
    (w.step e).Relates Eq := by
  cases e with
  | read => exact hw.read fun _ _ _ _ => rfl
  | change c =>
    refine ⟨fun shown hshown h hh => ?_, hw.readings⟩
    obtain ⟨m, hm, hsame⟩ := hw.shown shown hshown h hh
    exact ⟨m, (he (Option.isSome_of_mem hshown) h hh).trans hm, hsame⟩

/-- An instance that nothing changes between its two readings is read as the same twice. -/
theorem Relates.eq_run {w : Answering} (hw : w.Relates Eq) {events : List Event}
    (hspared : w.Spared events) : (w.run events).Relates Eq := by
  induction events generalizing w with
  | nil => exact hw
  | cons e events ih => exact ih (hw.eq_step hspared.1) hspared.2

/-! ## A request that is alone -/

theorem read_read {memory : MemoryStore} {t : Instances} {h : Handle} {rest : List Handle}
    {readings : List (Metric × Metric)} {m : Metric} (hm : t.get? h = some m) :
    (read (read ⟨memory, t, h :: rest, none, readings⟩)) =
      ⟨memory, t, rest, none, readings ++ [(m, m)]⟩ := by
  simp [read, hm]

/-- A request that is alone reads every instance twice as it is. -/
theorem run_read_alone {memory : MemoryStore} {t : Instances} {handles : List Handle}
    (hknown : MemoryStore.Known t handles) (readings : List (Metric × Metric)) :
    (run ⟨memory, t, handles, none, readings⟩ (List.replicate (2 * handles.length) .read)).readings =
      readings ++ (t.metrics handles).map fun m => (m, m) := by
  induction handles generalizing readings with
  | nil => exact (List.append_nil readings).symm
  | cons h handles ih =>
    obtain ⟨m, hm⟩ := hknown h List.mem_cons_self
    have hrest : MemoryStore.Known t handles := fun other hother =>
      hknown other (List.mem_cons_of_mem h hother)
    have hmetrics : t.metrics (h :: handles) = m :: t.metrics handles := List.filterMap_cons_some hm
    have hlength : 2 * (h :: handles).length = 2 * handles.length + 1 + 1 := rfl
    rw [hlength, List.replicate_succ, List.replicate_succ, hmetrics]
    unfold run
    rw [List.foldl_cons, List.foldl_cons]
    unfold step
    rw [read_read hm]
    exact (ih hrest _).trans (List.append_assoc readings _ _)

/-- So it makes the records of the metrics as they are. -/
theorem records_alone {memory : MemoryStore} {t : Instances} {handles : List Handle}
    (hknown : MemoryStore.Known t handles) (c : Wire.Converter) :
    ((start memory t handles).run (List.replicate (2 * handles.length) .read)).records c =
      (t.metrics handles).mapM c.encode := by
  unfold records start
  rw [run_read_alone hknown, List.nil_append, List.mapM_map]
  rfl

end Answering

/-! ## Answers of a collector -/

variable {c c' : Collector} {handles : List Handle}

/-- The instances that a collector has to make records of, and the collector by then. -/
inductive Answers (c : Collector) : Collector → List Handle → Prop where
  /-- Records have been stored, as these instances. -/
  | stored {records : List Wire.Record} {metrics : List Metric} {c' : Collector}
      {handles : List Handle} (hdecode : records.mapM c.converter.decode = .ok metrics)
      (hadd : c.addMetrics metrics = (.ok handles, c')) : c.Answers c' handles
  /-- A record asked for the instance. -/
  | found {query : Wire.Record} {kind : Kind} {h : Handle} (hid : query.id ≠ "")
      (htype : query.type = kind.name) (hget : c.storage.get kind.name query.id = .ok h) :
      c.Answers c [h]

theorem addMetrics_of_ok {metrics : List Metric} (h : c.addMetrics metrics = (.ok handles, c')) :
    c'.converter = c.converter ∧ (handles, c'.storage.memory, c'.storage.instances) =
      c.storage.memory.addFresh c.storage.instances metrics := by
  obtain ⟨hstored, rfl⟩ := Prod.ext_iff.mp h
  refine ⟨rfl, Storage.eq_add_of_ok (Prod.ext_iff.mpr ⟨hstored, rfl⟩)⟩

theorem Answers.converter (h : c.Answers c' handles) : c'.converter = c.converter := by
  cases h with
  | stored hdecode hadd => exact (addMetrics_of_ok hadd).1
  | found hid htype hget => rfl

/-- What a collector makes records of has a name. -/
theorem Answers.named (h : c.Answers c' handles)
    (hfiled : c.storage.memory.Filed c.storage.instances) :
    ∀ handle ∈ handles, Answering.Named c'.storage.instances handle := by
  cases h with
  | @stored records metrics _ _ hdecode hadd =>
    intro handle hmem
    have hfresh := (addMetrics_of_ok hadd).2
    have hanswers := MemoryStore.answers_addFresh hfiled metrics
    have hfiled' := MemoryStore.filed_addFresh hfiled metrics
    rw [← hfresh] at hanswers hfiled'
    obtain ⟨m, hm, hfind⟩ := List.mem_map.mp (hanswers ▸ List.mem_map_of_mem hmem)
    obtain ⟨m', hm', -, hname⟩ := hfiled' _ _ _ hfind
    obtain ⟨r, -, hr⟩ := (mem_iff_of_mapM_eq_ok hdecode).mp hm
    obtain ⟨hid, hstands⟩ :=
      Wire.Converter.readMetric_eq_ok_iff.mp (Wire.Converter.decode_eq_ok_iff.mp hr).1
    exact ⟨m', hm', hname.trans_ne (hstands.id ▸ hid)⟩
  | @found query kind h hid _ hget =>
    intro handle hmem
    obtain rfl := List.mem_singleton.mp hmem
    unfold Storage.get MemoryStore.get at hget
    rw [Kind.ofName?_name, Option.bind_some] at hget
    split at hget
    · rename_i found hfind
      cases hget
      obtain ⟨m, hm, -, hname⟩ := hfiled _ _ _ hfind
      exact ⟨m, hm, hname.trans_ne hid⟩
    · cases hget

theorem Answers.known (h : c.Answers c' handles)
    (hfiled : c.storage.memory.Filed c.storage.instances) :
    MemoryStore.Known c'.storage.instances handles := by
  intro handle hmem
  obtain ⟨m, hm, -⟩ := h.named hfiled handle hmem
  exact ⟨m, hm⟩

/-- A request that is alone answers with the records of what it has stored. -/
theorem store_alone {records : List Wire.Record} {metrics : List Metric}
    (hfiled : c.storage.memory.Filed c.storage.instances)
    (hdecode : records.mapM c.converter.decode = .ok metrics)
    (hadd : c.addMetrics metrics = (.ok handles, c')) :
    c.store records = (((Answering.start c'.storage.memory c'.storage.instances handles).run
      (List.replicate (2 * handles.length) .read)).records c.converter, c') := by
  have hanswers : c.Answers c' handles := .stored hdecode hadd
  rw [Answering.records_alone (hanswers.known hfiled), ← hanswers.converter]
  unfold store
  rw [hdecode]
  dsimp only
  rw [hadd]
  rfl

theorem valueRecord_alone {query : Wire.Record} {kind : Kind} {h : Handle}
    (hfiled : c.storage.memory.Filed c.storage.instances) (hid : query.id ≠ "")
    (htype : query.type = kind.name) (hget : c.storage.get kind.name query.id = .ok h) :
    (c.valueRecord query).map ([·]) =
      ((Answering.start c.storage.memory c.storage.instances [h]).run [.read, .read]).records
        c.converter := by
  have hknown := (Answers.found hid htype hget).known hfiled
  obtain ⟨m, hm⟩ := hknown h List.mem_cons_self
  have hmetrics : c.storage.instances.metrics [h] = [m] := List.filterMap_cons_some hm
  refine Eq.trans ?_ (Answering.records_alone hknown c.converter).symm
  have hne : query.type ≠ "" := htype.trans_ne (Kind.name_ne_empty kind)
  rw [hmetrics]
  unfold valueRecord find
  rw [if_neg (hid ∘ String.isEmpty_iff.mp), if_neg (hne ∘ String.isEmpty_iff.mp), htype,
    Kind.read_name, ok_bind, hget, ok_bind]
  dsimp only
  rw [hm]
  dsimp only [ok_bind]
  rw [List.mapM_cons]
  cases c.converter.encode m <;> rfl

/-! ## Verification -/

open Wire.Converter (recordOf)

/-- The records are those of the readings. -/
theorem Answering.records_ofKey (w : Answering) (key : String) :
    w.records (.ofKey key) = .ok (w.readings.map fun p => recordOf key p.1 p.2) := by
  unfold records
  simp only [Wire.Converter.encodeReadings_ofKey]
  exact List.mapM_pure

/-- A record that a collector with a key answers with shows the first reading of an instance. It verifies
exactly if the second reading has the same signature, which it has, unless digests collide, exactly if it
has the same count or the same six places. This is so for every instance that nothing changes between its
two readings; an update in between is enough for a record that is rejected. -/
theorem answer_verifies_iff_signed_alike {key : String} (hkey : key ≠ "")
    (hfiled : c.storage.memory.Filed c.storage.instances) (hconverter : c.converter = .ofKey key)
    (h : c.Answers c' handles) (events : List Answering.Event) :
    let before := Answering.start c'.storage.memory c'.storage.instances handles
    let after := before.run events
    after.records c'.converter = .ok (after.readings.map fun p => recordOf key p.1 p.2) ∧
    (∀ p ∈ after.readings,
      c.converter.decode (recordOf key p.1 p.2) =
        (if Signer.signature key p.1 = Signer.signature key p.2 then .ok p.1
          else .error ⟨["check signature"], .invalidSignature p.1.name⟩) ∧
      (¬ Signer.Collide key p.1 p.2 →
        (Signer.signature key p.1 = Signer.signature key p.2 ↔
          p.1.value.signedText = p.2.value.signedText))) ∧
    (before.Spared events →
      ∀ p ∈ after.readings, c.converter.decode (recordOf key p.1 p.2) = .ok p.1) := by
  intro before after
  have halike : after.Relates Answering.Alike :=
    (Answering.relates_start _ _ _ _).alike_run (h.named hfiled) events
  rw [h.converter, hconverter]
  refine ⟨after.records_ofKey key, fun p hp => ?_, fun hspared p hp => ?_⟩
  · obtain ⟨hname, hsame, hkind⟩ := halike.readings p hp
    refine ⟨Wire.Converter.decode_recordOf hkey hname p.2, fun hcollide => ?_⟩
    rw [Signer.signature_eq_iff hcollide, Metric.canonicalText_eq_iff]
    exact ⟨fun h => h.2.2, fun h => ⟨hsame.symm, hkind.symm, h⟩⟩
  · have heq := ((Answering.relates_start _ _ _ _).eq_run hspared).readings p hp
    rw [← heq]
    exact Wire.Converter.decode_recordOf_self key (halike.readings p hp).1

/-- A collector with a key and one counter. -/
def oneCounter : Collector :=
  ⟨⟨⟨#[⟨"a", .counter 5⟩]⟩, MemoryStore.empty.put .counter "a" 0, .file ⟨none⟩, false, .empty⟩,
    .ofKey "k"⟩

theorem filed_oneCounter : oneCounter.storage.memory.Filed oneCounter.storage.instances := by
  have hget : oneCounter.storage.instances.get? 0 = some ⟨"a", .counter 5⟩ := rfl
  exact (MemoryStore.filed_empty _).put hget

theorem answers_oneCounter : oneCounter.Answers oneCounter [0] := by
  have hid : (Wire.Record.query "a" "counter").id ≠ "" := by decide
  have hget : oneCounter.storage.get Kind.counter.name "a" = .ok 0 := by decide +kernel
  exact .found hid rfl hget

/-- After an update that is over before the first reading, the answer for the counter verifies. -/
theorem answer_verifies_undisturbed :
    let before := Answering.start oneCounter.storage.memory oneCounter.storage.instances [0]
    let events := [.change (.make ⟨"a", .counter 1⟩), .change (.add [1]), .read, .read]
    before.Spared events ∧
      (before.run events).readings = [(⟨"a", .counter 6⟩, ⟨"a", .counter 6⟩)] ∧
      ∃ r, (before.run events).records oneCounter.converter = .ok [r] ∧ r.delta = some 6 ∧
        oneCounter.converter.decode r = .ok ⟨"a", .counter 6⟩ := by
  intro before events
  have hreadings : (before.run events).readings = [(⟨"a", .counter 6⟩, ⟨"a", .counter 6⟩)] := by
    decide +kernel
  have hspared : before.Spared events := ⟨(nomatch ·), (nomatch ·), trivial, trivial, trivial⟩
  obtain ⟨hrecords, -, hverifies⟩ :=
    answer_verifies_iff_signed_alike (by decide) filed_oneCounter rfl answers_oneCounter events
  rw [hreadings] at hrecords
  exact ⟨hspared, hreadings, _, hrecords, rfl,
    hverifies hspared _ (hreadings ▸ List.mem_cons_self)⟩

/-- Another request adds one to the counter between the two readings: the answer shows five and is signed
for six, so it is rejected under the key of the collector itself. -/
theorem answer_with_update_between_readings_is_rejected :
    let after := (Answering.start oneCounter.storage.memory oneCounter.storage.instances [0]).run
      [.read, .change (.make ⟨"a", .counter 1⟩), .change (.add [1]), .read]
    ∃ r, after.records oneCounter.converter = .ok [r] ∧ r.delta = some 5 ∧
      oneCounter.converter.decode r = .error ⟨["check signature"], .invalidSignature "a"⟩ := by
  intro after
  have hreadings : after.readings = [(⟨"a", .counter 5⟩, ⟨"a", .counter 6⟩)] := by decide +kernel
  have hrecords := after.records_ofKey "k"
  rw [hreadings] at hrecords
  refine ⟨_, hrecords, rfl, ?_⟩
  exact (Wire.Converter.decode_recordOf (by decide) (by decide) _).trans
    (if_neg Signer.signature_five_ne_six)

end Collector

end Telemetry
