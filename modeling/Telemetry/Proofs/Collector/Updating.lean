-- SUMMARY: Posted records: the first that is rejected is the answer and changes nothing, else each is answered with what is stored in the end.
import Mathlib
import Telemetry.Proofs.Backup.Changes
import Telemetry.Proofs.Backup.Database
import Telemetry.Proofs.Collector.Answering
import Telemetry.Proofs.Collector.Intake
import Telemetry.Proofs.Collector.Routing

/-!
# Posted records

A list of records, or a single one, is posted. All of them are accepted before any is stored, so a record
that is rejected leaves the collector as it was, whatever stands around it. Records that are accepted are
absorbed in their order, and each is answered with the instance under its type and name, as it is after
the last of them.
-/

namespace Telemetry

open Wire (Record)
open Wire.Converter (hashOf readMetric recordOf)

/-! ## Why records are rejected -/

theorem Error.status_of_isClientFault {e : Error} (h : e.cause.isClientFault = true) :
    e.status = 400 := by
  simp [Error.status, h]

theorem Error.status_of_unknownType {e : Error} {type : String} (h : e.cause = .unknownType type) :
    e.status = 501 := by
  simp [Error.status, h, Cause.isClientFault, Cause.isUnknownType]

/-- The record has an id and a type, but there is no such type. -/
def Wire.Record.HasUnknownType (r : Record) : Prop :=
  r.id ≠ "" ∧ r.type ≠ "" ∧ ∀ kind : Kind, r.type ≠ kind.name

namespace Wire.Converter

/-- A record that stands for no metric has an unknown type or is malformed. -/
theorem cause_of_readMetric_eq_error {r : Record} {e : Error} (h : readMetric r = .error e) :
    r.HasUnknownType ∧ e.cause = .unknownType r.type ∨
      ¬ r.HasUnknownType ∧ e.cause.isClientFault = true := by
  unfold readMetric at h
  by_cases hid : r.id = ""
  · rw [if_pos (String.isEmpty_iff.mpr hid)] at h
    cases h
    exact .inr ⟨fun hunknown => hunknown.1 hid, rfl⟩
  by_cases htype : r.type = ""
  · rw [if_neg (hid ∘ String.isEmpty_iff.mp), if_pos (String.isEmpty_iff.mpr htype)] at h
    cases h
    exact .inr ⟨fun hunknown => hunknown.2.1 htype, rfl⟩
  rw [if_neg (hid ∘ String.isEmpty_iff.mp), if_neg (htype ∘ String.isEmpty_iff.mp)] at h
  cases hkind : Kind.ofName? r.type with
  | none =>
    have hread : Kind.read r.type = fail (.unknownType r.type) := by
      simp [Kind.read, hkind]
    rw [hread] at h
    cases h
    refine .inl ⟨⟨hid, htype, fun kind hname => ?_⟩, rfl⟩
    rw [Kind.ofName?_eq_some_iff.mpr hname] at hkind
    cases hkind
  | some kind =>
    have hname : r.type = kind.name := Kind.ofName?_eq_some_iff.mp hkind
    rw [Kind.read_eq_ok_iff.mpr hname, ok_bind] at h
    refine .inr ⟨fun hunknown => hunknown.2.2 kind hname, ?_⟩
    cases hvalue : selectedValue r kind with
    | some value => simp [hvalue] at h
    | none =>
      simp only [hvalue] at h
      cases h
      rfl

/-- With a key, a signature is wrong or no signature at all. -/
theorem isClientFault_of_checkSignature {key : String} (hkey : key ≠ "") {m : Metric} {text : String}
    {e : Error} (h : (ofKey key).checkSignature m text = .error e) :
    e.cause.isClientFault = true := by
  unfold checkSignature at h
  cases htext : Hex.decode text with
  | error fault =>
    simp only [ofKey, Signer.check, htext] at h
    cases h
    rfl
  | ok supplied =>
    have hcheck := congrArg Prod.fst (Signer.check_ofKey hkey m htext)
    dsimp only [ofKey] at h hcheck
    rw [hcheck, ok_bind] at h
    split at h <;> cases h
    rfl

/-- A record that is rejected has an unknown type or is at fault itself. -/
theorem cause_of_decode_eq_error {key : String} {r : Record} {e : Error}
    (h : (ofKey key).decode r = .error e) :
    r.HasUnknownType ∧ e.cause = .unknownType r.type ∨
      ¬ r.HasUnknownType ∧ e.cause.isClientFault = true := by
  unfold decode at h
  cases hread : readMetric r with
  | error e' =>
    rw [hread, error_bind] at h
    cases h
    exact cause_of_readMetric_eq_error hread
  | ok m =>
    obtain ⟨-, hstands⟩ := readMetric_eq_ok_iff.mp hread
    refine .inr ⟨fun hunknown => hunknown.2.2 m.kind hstands.type, ?_⟩
    rw [hread, ok_bind, signs_ofKey] at h
    by_cases hkey : key = ""
    · simp [hkey] at h
    cases hsignature : r.signature? with
    | none => simp [hsignature] at h
    | some text =>
      cases hcheck : (ofKey key).checkSignature m text with
      | ok _ => simp [hkey, hsignature, hcheck] at h
      | error e' =>
        simp [hkey, hsignature, hcheck] at h
        exact h ▸ isClientFault_of_checkSignature hkey hcheck

/-- Rejected for its type, a record is answered with a status of its own. -/
theorem status_of_decode_eq_error {key : String} {r : Record} {e : Error}
    (h : (ofKey key).decode r = .error e) :
    (r.HasUnknownType → e.status = 501) ∧ (¬ r.HasUnknownType → e.status = 400) := by
  obtain ⟨hunknown, hcause⟩ | ⟨hunknown, hcause⟩ := cause_of_decode_eq_error h
  · exact ⟨fun _ => Error.status_of_unknownType hcause, absurd hunknown⟩
  · exact ⟨(absurd · hunknown), fun _ => Error.status_of_isClientFault hcause⟩

end Wire.Converter

/-! ## Backups that accept writes -/

namespace Backup

/-- Every batch can be stored. -/
def Accepts (b : Backup) (site : Site) : Prop :=
  ∀ batch : List Metric, (b.add batch site).1 = .ok ()

/-- A file that can be read and written accepts every batch. -/
theorem accepts_file {path : String} {site : Site} (h : FileBackup.Writable path site.disk)
    {old : List Backup.Record} (hold : (⟨some path⟩ : FileBackup).records site.disk = .ok old) :
    (file ⟨some path⟩).Accepts site := by
  intro batch
  obtain ⟨d', hcall, -⟩ := FileBackup.Change.call_ok h hold (.add batch)
  have hadd : (⟨some path⟩ : FileBackup).add batch site.disk = (.ok (), d') := hcall
  simp [add, onDisk, hadd]

/-- An open connection that may write accepts every batch, once there are tables. -/
theorem accepts_database {c : Database.Connection} {site : Site} {t : Database.Tables}
    (h : c.Ready site t) : (database c).Accepts site := by
  intro batch
  obtain ⟨site', hadd, -⟩ := add_of_ready h batch
  simp [hadd]

end Backup

/-! ## What is stored -/

namespace MemoryStore

/-- The stored instances are the ones under the keys of the metrics, in their order. -/
theorem forall₂_addFresh {s : MemoryStore} {t : Instances} (hfiled : s.Filed t)
    (metrics : List Metric) :
    List.Forall₂ (fun m h => (s.addFresh t metrics).2.1.find? m.kind m.name = some h) metrics
      (s.addFresh t metrics).1 := by
  have hanswers := List.forall₂_eq_eq_eq ▸ (answers_addFresh hfiled metrics).symm
  simpa using hanswers

/-- Filed instances are read as metrics of their keys. -/
theorem Filed.forall₂_metrics {s : MemoryStore} {t : Instances} (hfiled : s.Filed t)
    {metrics : List Metric} {handles : List Handle}
    (h : List.Forall₂ (fun m h => s.find? m.kind m.name = some h) metrics handles) :
    List.Forall₂ (fun m stored => stored.kind = m.kind ∧ stored.name = m.name ∧
      s.value? t stored.kind stored.name = some stored.value) metrics (t.metrics handles) := by
  induction h with
  | nil => exact .nil
  | @cons m handle metrics handles hfind _ ih =>
    obtain ⟨stored, hget, hkind, hname⟩ := hfiled _ _ _ hfind
    have hvalue : s.value? t stored.kind stored.name = some stored.value := by
      rw [hkind, hname]
      exact value?_of_find? hfind hget
    have hmetrics : t.metrics (handle :: handles) = stored :: t.metrics handles :=
      List.filterMap_cons_some hget
    rw [hmetrics]
    exact .cons ⟨hkind, hname, hvalue⟩ ih

end MemoryStore

namespace Storage

/-- With a backup that accepts writes, if one is written at all, new metrics can be added. -/
theorem exists_addNew_eq_ok {s : Storage} (haccepts : s.sync = true → s.backup.Accepts s.site)
    (metrics : List Metric) : ∃ stored s', s.addNew metrics = (.ok stored, s') := by
  unfold addNew Storage.add addToMemory writeThrough
  cases hsync : s.sync with
  | false => exact ⟨_, _, rfl⟩
  | true =>
    simp only [if_true, haccepts hsync _]
    exact ⟨_, _, rfl⟩

end Storage

namespace Collector

open Http

variable {c : Collector} {key : String} {r : Request} {records : List Record}

/-! ## Requests that post records -/

/-- The request posts records: a list of them, or a single one. They are answered in the same form. -/
inductive Posts (r : Request) : List Record → (List Record → Response) → Prop where
  | batch {records : List Record} (hmethod : r.method = "POST")
      (hroute : Route.ofPath? (Route.pathOf r.target) = some .updateBatch)
      (hread : r.readJson Record.listOfJson? = .ok records) :
      Posts r records fun answers => .json (Record.writeAll answers)
  | one {record : Record} (hmethod : r.method = "POST")
      (hroute : Route.ofPath? (Route.pathOf r.target) = some .updateOne)
      (hread : r.readJson Record.ofJson? = .ok record) :
      Posts r [record] fun answers => .json (String.join (answers.map Record.write))

theorem respond_of_posts {layout : List Record → Response} (h : Posts r records layout) :
    c.respond r = (response layout (c.store records).1, (c.store records).2) := by
  cases h with
  | batch hmethod hroute hread =>
    simp only [respond, hroute, Route.method, hmethod, if_true, respondAt_updateBatch hread]
  | one hmethod hroute hread =>
    simp only [respond, hroute, Route.method, hmethod, if_true, respondAt, hread]

theorem status_of_posts {layout : List Record → Response} (h : Posts r records layout)
    (answers : List Record) : (layout answers).status = 200 := by
  cases h <;> rfl

/-! ## Answers -/

/-- What a record is answered with under a key: the value under its type and its id, signed if there is a
    key at all. -/
structure Shows (key : String) (s : Storage) (record answer : Record) : Prop where
  id : answer.id = record.id
  type : answer.type = record.type
  stored : ∃ m : Metric, answer = recordOf key m m ∧ s.value? m.kind m.name = some m.value
  signed : answer.hash.isSome ↔ key ≠ ""

theorem shows_recordOf {s : Storage} {record : Record} {m : Metric}
    (hid : m.name = record.id) (htype : m.kind.name = record.type)
    (hvalue : s.value? m.kind m.name = some m.value) : Shows key s record (recordOf key m m) where
  id := (Wire.Converter.standsFor_recordOf key m m).id.trans hid
  type := (Wire.Converter.standsFor_recordOf key m m).type.trans htype
  stored := ⟨m, rfl, hvalue⟩
  signed := by simp [recordOf, hashOf]

/-- The records of what is stored for the metrics of records answer these. -/
theorem forall₂_shows {s : Storage} {metrics stored : List Metric}
    (hdecode : records.mapM c.converter.decode = .ok metrics)
    (hstored : List.Forall₂ (fun m stored => stored.kind = m.kind ∧ stored.name = m.name ∧
      s.value? stored.kind stored.name = some stored.value) metrics stored) :
    List.Forall₂ (Shows key s) records (stored.map fun m => recordOf key m m) := by
  induction records generalizing metrics stored with
  | nil =>
    cases hdecode
    cases hstored
    exact .nil
  | cons record records ih =>
    obtain ⟨m, others, hm, hothers, rfl⟩ := mapM_cons_eq_ok_iff.mp hdecode
    cases hstored with
    | cons hfirst hrest =>
      obtain ⟨hkind, hname, hvalue⟩ := hfirst
      obtain ⟨-, hstands⟩ :=
        Wire.Converter.readMetric_eq_ok_iff.mp (Wire.Converter.decode_eq_ok_iff.mp hm).1
      refine .cons (shows_recordOf ?_ ?_ hvalue) (ih hothers hrest)
      · rw [hname, hstands.id]
      · rw [hkind, hstands.type]

/-- Once all records are accepted, the answers are found in what the storage has by then. -/
theorem store_of_accepted (hconverter : c.converter = .ofKey key)
    (hfiled : c.storage.memory.Filed c.storage.instances)
    (haccepts : c.storage.sync = true → c.storage.backup.Accepts c.storage.site)
    {metrics : List Metric} (hdecode : records.mapM c.converter.decode = .ok metrics) :
    ∃ answers, c.store records = (.ok answers, (c.addMetrics metrics).2) ∧
      List.Forall₂ (Shows key (c.addMetrics metrics).2.storage) records answers := by
  obtain ⟨handles, s', hadd⟩ := Storage.exists_addNew_eq_ok haccepts metrics
  have hstored : c.addMetrics metrics = (.ok handles, { c with storage := s' }) :=
    congrArg (fun added => (added.1, { c with storage := added.2 })) hadd
  have hfresh := (addMetrics_of_ok hstored).2
  have hfind := MemoryStore.forall₂_addFresh hfiled metrics
  have hfiled' := MemoryStore.filed_addFresh hfiled metrics
  rw [← hfresh] at hfind hfiled'
  have hshows : List.Forall₂ (Shows key s') records
      ((s'.instances.metrics handles).map fun m => recordOf key m m) :=
    forall₂_shows hdecode (hfiled'.forall₂_metrics hfind)
  have hstore := store_of_mapM_decode hconverter hdecode
  rw [hstored] at hstore ⊢
  exact ⟨_, hstore, hshows⟩

/-- Records are posted to a collector whose backup, if it is written at all, accepts writes. If one of them
    is rejected, the first that is decides the answer, with the status for unknown types or the one for bad
    requests, and nothing has changed. If none is, all of them are absorbed in their order, and each is
    answered with what is stored under its type and its id in the end, signed if there is a key. -/
theorem posted_records_are_stored_together (hconverter : c.converter = .ofKey key)
    (hfiled : c.storage.memory.Filed c.storage.instances)
    (haccepts : c.storage.sync = true → c.storage.backup.Accepts c.storage.site)
    {layout : List Record → Response} (hposts : Posts r records layout) :
    ((∃ record ∈ records, ∃ e, c.converter.decode record = .error e) →
      ∃ before record after e, records = before ++ record :: after ∧
        (∀ earlier ∈ before, ∃ m, c.converter.decode earlier = .ok m) ∧
        c.converter.decode record = .error e ∧ c.respond r = (errorResponse e, c) ∧
        (record.HasUnknownType → e.status = 501) ∧ (¬ record.HasUnknownType → e.status = 400)) ∧
    ((∀ record ∈ records, ∃ m, c.converter.decode record = .ok m) →
      ∃ metrics answers c', records.mapM c.converter.decode = .ok metrics ∧
        c.respond r = (layout answers, c') ∧ (layout answers).status = 200 ∧
        List.Forall₂ (Shows key c'.storage) records answers ∧
        ∀ kind name, c'.storage.value? kind name =
          (updates metrics kind name).foldl (fun before v => some (MemoryStore.absorb v before))
            (c.storage.value? kind name)) := by
  constructor
  · intro hrejected
    obtain ⟨before, record, after, e, rfl, hbefore, hrecord⟩ := exists_first_error hrejected
    have hstore := store_of_mapM_decode_error (mapM_eq_error_of_first hbefore hrecord after)
    refine ⟨before, record, after, e, rfl, hbefore, hrecord, ?_, ?_⟩
    · rw [respond_of_posts hposts, hstore]
      rfl
    · rw [hconverter] at hrecord
      exact Wire.Converter.status_of_decode_eq_error hrecord
  · intro haccepted
    obtain ⟨metrics, hdecode⟩ := exists_mapM_eq_ok haccepted
    obtain ⟨answers, hstore, hshows⟩ := store_of_accepted hconverter hfiled haccepts hdecode
    refine ⟨metrics, answers, (c.addMetrics metrics).2, hdecode, ?_, status_of_posts hposts answers,
      hshows, Storage.value?_addNew hfiled metrics⟩
    rw [respond_of_posts hposts, hstore]
    rfl

/-- A collector with a key, which writes through to a file without records. -/
def signing : Collector :=
  ⟨.start .empty (.file ⟨some "b"⟩) true ⟨Disk.empty.put "b" (.file []), .empty⟩, .ofKey "k"⟩

/-- A collector with a key, which writes through to new tables in memory. -/
def signingTables : Collector :=
  let (connection, site) := Database.Connection.openMemory .empty
  ⟨.start .empty (.database connection) true (connection.migrate site).2, .ofKey "k"⟩

theorem accepts_signingTables : signingTables.storage.backup.Accepts signingTables.storage.site := by
  have hfresh : (Database.Connection.openMemory .empty).1.tables?
      (Database.Connection.openMemory .empty).2 = none := by decide
  exact Backup.accepts_database (Database.Connection.ready_of_migrate hfresh rfl)

theorem posts_posting {records : List Record} (hreceived : records.map Record.received = records)
    (hfits : (Utf8.encode (Record.writeAll records)).length ≤ BodyFault.limit) :
    Posts (.posting (Record.writeAll records)) records
      fun answers => .json (Record.writeAll answers) := by
  have hpath : Route.pathOf "/updates/" = String.ofList
      (Route.joined (["updates".toList, []].map (Url.escape Url.Part.segment.encodes))) := by
    decide
  have hsegments : Route.segments (Route.pathOf "/updates/") = ["", "updates", ""] := by
    rw [hpath, Route.segments_joined]
    decide
  have hroute : Route.ofPath? (Route.pathOf "/updates/") = some .updateBatch := by
    simp [Route.ofPath?, hsegments, Route.dropFinalSlash]
  refine .batch rfl hroute (Request.readJson_of_brings (Request.brings_posting hfits) ?_)
  rw [Record.listOfJson?_encode_writeAll, hreceived]

/-- A name that is posted twice is answered with the sum both times, and with a record of an unknown type
    it is not stored at all. Over tables it is answered like over a file. -/
theorem posted_pair_is_stored_together :
    let pair := [Record.counter "a" 5, .counter "a" 7]
    let refused := [Record.counter "a" 5, .query "h" "histogram"]
    signing.storage.memory.Filed signing.storage.instances ∧
    (signing.storage.sync = true → signing.storage.backup.Accepts signing.storage.site) ∧
    (∃ answers c', signing.respond (.posting (Record.writeAll pair)) =
        (.json (Record.writeAll answers), c') ∧ List.Forall₂ (Shows "k" c'.storage) pair answers ∧
      c'.storage.value? .counter "a" = some (.counter 12)) ∧
    (∃ e, signing.respond (.posting (Record.writeAll refused)) = (errorResponse e, signing)) ∧
    ∃ answers c', signingTables.respond (.posting (Record.writeAll pair)) =
        (.json (Record.writeAll answers), c') ∧ List.Forall₂ (Shows "k" c'.storage) pair answers ∧
      c'.storage.value? .counter "a" = some (.counter 12) := by
  intro pair refused
  have hfiled : signing.storage.memory.Filed signing.storage.instances := MemoryStore.filed_empty _
  have hread : (⟨some "b"⟩ : Backup.FileBackup).records signing.storage.site.disk = .ok [] := by
    decide
  have haccepts : signing.storage.backup.Accepts signing.storage.site :=
    Backup.accepts_file Backup.FileBackup.writable_put_file hread
  have hpair : pair.mapM signing.converter.decode = .ok [⟨"a", .counter 5⟩, ⟨"a", .counter 7⟩] := rfl
  have hrefused : signing.converter.decode (.query "h" "histogram") =
      .error ⟨[], .unknownType "histogram"⟩ := rfl
  have hpostsPair : Posts (.posting (Record.writeAll pair)) pair _ :=
    posts_posting rfl (by decide +kernel)
  have haccepted : ∀ record ∈ pair, ∃ m, signing.converter.decode record = .ok m := by
    intro record hrecord
    obtain ⟨m, -, hm⟩ := exists_of_mapM_eq_ok hpair hrecord
    exact ⟨m, hm⟩
  refine ⟨hfiled, fun _ => haccepts, ?_, ?_, ?_⟩
  · obtain ⟨metrics, answers, c', hdecode, hrespond, -, hshows, hvalues⟩ :=
      (posted_records_are_stored_together rfl hfiled (fun _ => haccepts) hpostsPair).2 haccepted
    cases hpair.symm.trans hdecode
    exact ⟨answers, c', hrespond, hshows, (hvalues .counter "a").trans (by decide)⟩
  · have hposts : Posts (.posting (Record.writeAll refused)) refused _ :=
      posts_posting rfl (by decide +kernel)
    obtain ⟨-, -, -, e, -, -, -, hrespond, -⟩ :=
      (posted_records_are_stored_together rfl hfiled (fun _ => haccepts) hposts).1
        ⟨_, by simp [refused], _, hrefused⟩
    exact ⟨e, hrespond⟩
  · -- Both collectors have the same key, so they accept the same records.
    obtain ⟨metrics, answers, c', hdecode, hrespond, -, hshows, hvalues⟩ :=
      (posted_records_are_stored_together rfl (MemoryStore.filed_empty _) (fun _ => accepts_signingTables)
        hpostsPair (c := signingTables)).2 haccepted
    cases hpair.symm.trans hdecode
    exact ⟨answers, c', hrespond, hshows, (hvalues .counter "a").trans (by decide)⟩

end Collector

end Telemetry
