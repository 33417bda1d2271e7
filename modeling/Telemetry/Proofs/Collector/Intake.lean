-- SUMMARY: What a collector takes in: a batch that an agent has written reaches its storage as it was, if every level is finite and the body is not too long.
import Mathlib
import Telemetry.Agent.Pusher
import Telemetry.Collector.Basic
import Telemetry.Proofs.Wire.Conversion
import Telemetry.Proofs.Wire.Text

/-!
# Intake

An agent makes records of a batch and writes them as a list; a collector with the same key reads the list,
accepts every record, and hands its storage the metrics of the batch in their order. Levels that are not
finite have no text, and a body over the limit is not read at all: then all of the batch is refused.
-/

namespace Telemetry

/-! ## Values that have a text in records -/

/-- A counter, or a gauge whose level is finite. -/
def Value.Finite : Value → Prop
  | counter _ => True
  | gauge level => level.isFinite = true

instance : DecidablePred Value.Finite
  | .counter _ => inferInstanceAs (Decidable True)
  | .gauge level => inferInstanceAs (Decidable (level.isFinite = true))

namespace Wire.Converter

theorem received_recordOf (key : String) {m : Metric} (hfinite : m.value.Finite) (signed : Metric) :
    (recordOf key m signed).received = recordOf key m signed := by
  obtain ⟨name, value⟩ := m
  cases value with
  | counter count => rfl
  | gauge level =>
    have hvalue : (some level).filter (·.isFinite) = some level := Option.filter_some_pos hfinite
    unfold recordOf Record.received
    dsimp only [plainRecord, Record.gauge]
    rw [hvalue]

theorem map_received_recordOf (key : String) {metrics : List Metric}
    (hfinite : ∀ m ∈ metrics, m.value.Finite) :
    (metrics.map fun m => recordOf key m m).map Record.received =
      metrics.map fun m => recordOf key m m := by
  rw [List.map_map]
  exact List.map_congr_left fun m hm => received_recordOf key (hfinite m hm) m

theorem mapM_encode_ofKey (key : String) (metrics : List Metric) :
    metrics.mapM (ofKey key).encode = .ok (metrics.map fun m => recordOf key m m) := by
  unfold encode
  simp only [encodeReadings_ofKey]
  exact List.mapM_pure

theorem mapM_decode_recordOf (key : String) {metrics : List Metric}
    (hnames : ∀ m ∈ metrics, m.name ≠ "") :
    (metrics.map fun m => recordOf key m m).mapM (ofKey key).decode = .ok metrics := by
  induction metrics with
  | nil => rfl
  | cons m metrics ih =>
    obtain ⟨hname, hrest⟩ := List.forall_mem_cons.mp hnames
    exact mapM_cons_eq_ok_iff.mpr ⟨m, metrics, decode_recordOf_self key hname, ih hrest, rfl⟩

end Wire.Converter

/-! ## Requests with a text -/

namespace Http.Request

open Http (BodyFault)

variable {r : Request} {text : String} {α : Type} {decode : Json → Option α}

/-- The request brings a text: it announces JSON, its body stands for the text, and neither is too long. -/
structure Brings (r : Request) (text : String) : Prop where
  announces : r.announcesJson = true
  sent : r.body.length ≤ BodyFault.limit
  decoded : r.decodedBody? = some (Utf8.encode text)
  fits : (Utf8.encode text).length ≤ BodyFault.limit

theorem readJson_of_brings (h : r.Brings text) {x : α}
    (hread : (Json.readBytes? (Utf8.encode text)).bind decode = some x) :
    r.readJson decode = .ok x := by
  unfold readJson
  simp only [h.announces, h.decoded, Nat.not_lt.mpr h.sent, Nat.not_lt.mpr h.fits, hread, Bool.not_true,
    Bool.false_eq_true, if_false]

theorem readJson_of_tooLong (hannounces : r.announcesJson = true)
    (hlong : BodyFault.limit < r.body.length) :
    r.readJson decode = .error (.tooLong r.body.length) := by
  unfold readJson
  simp only [hannounces, hlong, Bool.not_true, Bool.false_eq_true, if_false, if_true]

/-- The request carries a delivery: it has its headers and its body. -/
structure Carries (r : Request) (d : Agent.Delivery) : Prop where
  contentType : r.header? "content-type" = some d.contentType
  contentEncoding : r.header? "content-encoding" = d.contentEncoding
  body : r.body = d.body

/-- A delivery of JSON that unpacks to a text brings it, if neither is too long. -/
theorem brings_of_carries {d : Agent.Delivery} (h : r.Carries d)
    (htype : d.contentType = "application/json") {packed : Bool}
    (hencoding : d.contentEncoding = if packed then some "gzip" else none)
    (hbody : (if packed then Gzip.decompress? d.body else some d.body) = some (Utf8.encode text))
    (hsent : d.body.length ≤ BodyFault.limit) (hfits : (Utf8.encode text).length ≤ BodyFault.limit) :
    r.Brings text where
  announces := by
    unfold announcesJson
    rw [h.contentType, htype]
    decide +kernel
  sent := h.body ▸ hsent
  decoded := by
    unfold decodedBody?
    rw [h.contentEncoding, h.body, hencoding, ← hbody]
    cases packed with
    | false => rfl
    | true =>
      have hname : (Text.trim "gzip").toLower = "gzip" := by decide +kernel
      simp [hname]
  fits := hfits

/-- The request that posts a text as JSON, without packing it. -/
def posting (text : String) : Request :=
  ⟨"POST", "/updates/", [("content-type", "application/json")], Utf8.encode text⟩

theorem header?_posting (text name : String) :
    (posting text).header? name = if name = "content-type" then some "application/json" else none := by
  have hlower : "content-type".toLower = "content-type" := by decide +kernel
  unfold header? posting
  by_cases hname : name = "content-type"
  · simp [hlower, hname]
  · simp [hlower, hname, Ne.symm hname]

theorem announcesJson_posting (text : String) : (posting text).announcesJson = true := by
  unfold announcesJson
  rw [header?_posting, if_pos rfl]
  decide +kernel

theorem brings_posting (hfits : (Utf8.encode text).length ≤ BodyFault.limit) :
    (posting text).Brings text where
  announces := announcesJson_posting text
  sent := hfits
  decoded := by
    unfold decodedBody?
    rw [header?_posting, if_neg (by decide)]
    rfl
  fits := hfits

end Http.Request

/-! ## Deliveries of lists -/

namespace Agent.Pusher

open Wire (Record)

/-- What is sent of a list: the text of its records, packed or as it is. -/
theorem listDelivery_eq_ok {p : Pusher} {key : String} (hconverter : p.converter = .ofKey key)
    {metrics : List Metric} {d : Delivery} (h : p.listDelivery metrics = .ok d) :
    let body := Utf8.encode (Record.writeAll (metrics.map fun m => Wire.Converter.recordOf key m m))
    d.contentType = "application/json" ∧
      d.contentEncoding = (if p.compress then some "gzip" else none) ∧
      d.body = if p.compress then Gzip.compress body else body := by
  unfold listDelivery at h
  rw [hconverter, Wire.Converter.mapM_encode_ofKey, within_ok, ok_bind] at h
  dsimp only at h
  split at h
  · cases h
    exact ⟨rfl, rfl, rfl⟩
  · cases h

end Agent.Pusher

/-! ## Batches at the collector -/

namespace Wire.Converter

/-- Without its level, the record of a gauge is refused. -/
theorem decode_received_of_not_finite (key : String) {name : String} (hname : name ≠ "")
    {level : Binary64} (hlevel : level.isFinite = false) (signed : Metric) :
    (ofKey key).decode (recordOf key ⟨name, .gauge level⟩ signed).received =
      .error ⟨["convert metric"], .valueMissing name⟩ := by
  have hvalue : (some level).filter (·.isFinite) = none := by simp [Option.filter, hlevel]
  have hrecord : (recordOf key ⟨name, .gauge level⟩ signed).received =
      ⟨name, "gauge", none, none, hashOf key signed⟩ :=
    congrArg (fun value => Record.mk name "gauge" none value (hashOf key signed)) hvalue
  have hread : readMetric ⟨name, "gauge", none, none, hashOf key signed⟩ =
      .error ⟨["convert metric"], .valueMissing name⟩ := by
    unfold readMetric
    rw [if_neg (hname ∘ String.isEmpty_iff.mp)]
    rfl
  unfold decode
  rw [hrecord, hread, error_bind]

/-- One gauge without a level is enough for all of the batch. -/
theorem mapM_decode_received_of_not_finite (key : String) (before after : List Metric) {name : String}
    {level : Binary64} (hnames : ∀ m ∈ before, m.name ≠ "") (hfinite : ∀ m ∈ before, m.value.Finite)
    (hname : name ≠ "") (hlevel : level.isFinite = false) :
    (((before ++ ⟨name, .gauge level⟩ :: after).map fun m => recordOf key m m).map
        Record.received).mapM (ofKey key).decode =
      .error ⟨["convert metric"], .valueMissing name⟩ := by
  rw [List.map_append, List.map_append, List.mapM_append, map_received_recordOf key hfinite,
    mapM_decode_recordOf key hnames, ok_bind, List.map_cons, List.map_cons, List.mapM_cons,
    decode_received_of_not_finite key hname hlevel]
  rfl

end Wire.Converter

namespace Collector

open Http
open Wire (Record)
open Wire.Converter (recordOf)

variable {c : Collector} {key : String} {metrics : List Metric}

/-- Once all records are accepted, only the storage may fail, and an answer is found for all that it has
stored. -/
theorem store_of_mapM_decode (hconverter : c.converter = .ofKey key) {records : List Record}
    (hdecode : records.mapM c.converter.decode = .ok metrics) :
    c.store records =
      ((c.addMetrics metrics).1.map fun handles =>
          ((c.addMetrics metrics).2.storage.instances.metrics handles).map fun m => recordOf key m m,
        (c.addMetrics metrics).2) := by
  have hafter : (c.addMetrics metrics).2.converter = .ofKey key := hconverter
  unfold store
  rw [hdecode]
  dsimp only
  simp only [hafter, Wire.Converter.mapM_encode_ofKey]
  cases (c.addMetrics metrics).1 <;> rfl

theorem store_of_mapM_decode_error {records : List Record} {e : Error}
    (hdecode : records.mapM c.converter.decode = .error e) : c.store records = (.error e, c) := by
  unfold store
  rw [hdecode]

theorem respondAt_updateBatch {r : Request} {records : List Record}
    (hread : r.readJson Record.listOfJson? = .ok records) :
    c.respondAt r .updateBatch =
      (response (fun records => .json (Record.writeAll records)) (c.store records).1,
        (c.store records).2) := by
  unfold respondAt
  rw [hread]

theorem respondAt_updateBatch_of_fault {r : Request} {fault : BodyFault}
    (hread : r.readJson Record.listOfJson? = .error fault) :
    c.respondAt r .updateBatch = (fault.response, c) := by
  unfold respondAt
  simp only [hread]

theorem readJson_recordOf (hfinite : ∀ m ∈ metrics, m.value.Finite) {r : Request}
    (h : r.Brings (Record.writeAll (metrics.map fun m => recordOf key m m))) :
    r.readJson Record.listOfJson? = .ok (metrics.map fun m => recordOf key m m) := by
  refine Request.readJson_of_brings h ?_
  rw [Record.listOfJson?_encode_writeAll, Wire.Converter.map_received_recordOf key hfinite]

/-- A batch of named metrics with finite levels is accepted by every collector with the key of the agent,
if its text is within the limit, as it is sent and as it is unpacked: the records are read as they were
written, each is accepted, and the storage is handed the metrics of the batch in their order. From there
only the storage can fail. -/
theorem pushed_batch_is_accepted (key : String) {metrics : List Metric}
    (hnames : ∀ m ∈ metrics, m.name ≠ "") (hfinite : ∀ m ∈ metrics, m.value.Finite) :
    ∃ records, metrics.mapM (Wire.Converter.ofKey key).encode = .ok records ∧
      (∀ (p : Agent.Pusher) (d : Agent.Delivery) (r : Request), p.converter = .ofKey key →
        p.listDelivery metrics = .ok d → r.Carries d →
        (p.compress = true →
          Gzip.decompress? d.body = some (Utf8.encode (Record.writeAll records))) →
        d.body.length ≤ BodyFault.limit →
        (Utf8.encode (Record.writeAll records)).length ≤ BodyFault.limit →
        r.Brings (Record.writeAll records)) ∧
      ∀ (c : Collector) (r : Request), c.converter = .ofKey key →
        r.Brings (Record.writeAll records) →
        r.readJson Record.listOfJson? = .ok records ∧
        records.mapM c.converter.decode = .ok metrics ∧
        (c.respondAt r .updateBatch).2 = (c.addMetrics metrics).2 ∧
        (∀ e, (c.addMetrics metrics).1 = .error e →
          (c.respondAt r .updateBatch).1 = errorResponse e) ∧
        ∀ handles, (c.addMetrics metrics).1 = .ok handles →
          (c.respondAt r .updateBatch).1.status = 200 := by
  refine ⟨_, Wire.Converter.mapM_encode_ofKey key metrics, ?_, ?_⟩
  · intro p d r hconverter hdelivery hcarries hunpacks hsent hfits
    obtain ⟨htype, hencoding, hbody⟩ := Agent.Pusher.listDelivery_eq_ok hconverter hdelivery
    refine Request.brings_of_carries hcarries htype hencoding ?_ hsent hfits
    cases hpacked : p.compress with
    | false => exact congrArg some (hbody.trans (if_neg (Bool.eq_false_iff.mp hpacked)))
    | true => exact hunpacks hpacked
  · intro c r hconverter hbrings
    have hread := readJson_recordOf hfinite hbrings
    have hdecode : (metrics.map fun m => recordOf key m m).mapM c.converter.decode = .ok metrics :=
      hconverter ▸ Wire.Converter.mapM_decode_recordOf key hnames
    have hstore := store_of_mapM_decode hconverter hdecode
    rw [respondAt_updateBatch hread, hstore]
    refine ⟨hread, hdecode, rfl, fun e he => ?_, fun handles hhandles => ?_⟩
    · dsimp only
      rw [he]
      rfl
    · dsimp only
      rw [hhandles]
      rfl

/-- A collector that has just started, without a key and without a backup. -/
def unsigned : Collector :=
  ⟨.start ⟨#[]⟩ (.file ⟨none⟩) false .empty, .ofKey ""⟩

/-- A counter and a gauge arrive at such a collector. -/
theorem pushed_pair_is_accepted :
    let metrics := [⟨"a", .counter 5⟩, ⟨"g", .gauge (.ofNat 1)⟩]
    (∀ m ∈ metrics, m.name ≠ "") ∧ (∀ m ∈ metrics, m.value.Finite) ∧
    ∃ records, metrics.mapM (Wire.Converter.ofKey "").encode = .ok records ∧
      let answer := unsigned.respondAt (.posting (Record.writeAll records)) .updateBatch
      answer.1.status = 200 ∧
        answer.2.storage.snapshot.toEntries = [⟨"counter", "a", "5"⟩, ⟨"gauge", "g", "1"⟩] := by
  intro metrics
  have hnames : ∀ m ∈ metrics, m.name ≠ "" := by decide
  have hfinite : ∀ m ∈ metrics, m.value.Finite := by decide +kernel
  obtain ⟨records, hrecords, -, haccepted⟩ := pushed_batch_is_accepted "" hnames hfinite
  have hbrings : (Request.posting (Record.writeAll records)).Brings (Record.writeAll records) := by
    cases hrecords
    exact Request.brings_posting (by decide +kernel)
  obtain ⟨-, -, hafter, -, hstatus⟩ := haccepted unsigned _ rfl hbrings
  refine ⟨hnames, hfinite, records, hrecords, hstatus [0, 1] (by decide +kernel), ?_⟩
  rw [hafter]
  decide +kernel

/-- A level that is not a number is written as `null`, and then all of the batch is refused; and a name
may be so long that the text of its record is over the limit. -/
theorem pushed_batch_without_level_or_over_limit_is_refused :
    (∃ records,
      [⟨"a", .counter 5⟩, ⟨"g", .gauge .nan⟩].mapM (Wire.Converter.ofKey "").encode = .ok records ∧
      let answer := unsigned.respondAt (.posting (Record.writeAll records)) .updateBatch
      answer.1.status = 400 ∧ answer.2 = unsigned) ∧
    (∃ records,
      [⟨String.ofList (List.replicate BodyFault.limit 'a'), .counter 5⟩].mapM
          (Wire.Converter.ofKey "").encode = .ok records ∧
      let answer := unsigned.respondAt (.posting (Record.writeAll records)) .updateBatch
      answer.1.status = 413 ∧ answer.2 = unsigned) := by
  constructor
  · refine ⟨_, Wire.Converter.mapM_encode_ofKey "" _, ?_⟩
    have hname : "g" ≠ "" := by decide
    have hlevel : Binary64.nan.isFinite = false := rfl
    have hrefused := Wire.Converter.mapM_decode_received_of_not_finite "" [⟨"a", .counter 5⟩] []
      (by decide) (by decide +kernel) hname hlevel
    have hfits : (Utf8.encode (Record.writeAll ([⟨"a", .counter 5⟩, ⟨"g", .gauge .nan⟩].map
        fun m : Metric => recordOf "" m m))).length ≤ BodyFault.limit := by decide +kernel
    have hread := Request.readJson_of_brings (Request.brings_posting hfits)
      (Record.listOfJson?_encode_writeAll _)
    have hstore := store_of_mapM_decode_error (c := unsigned) hrefused
    simp only [List.singleton_append] at hstore
    rw [respondAt_updateBatch hread, hstore]
    exact ⟨rfl, rfl⟩
  · refine ⟨_, Wire.Converter.mapM_encode_ofKey "" _, ?_⟩
    generalize hname : String.ofList (List.replicate BodyFault.limit 'a') = name
    have hlength : name.length = BodyFault.limit := by
      rw [← hname, String.length_ofList, List.length_replicate]
    have hlong : BodyFault.limit < (Request.posting (Record.writeAll
        ([⟨name, .counter 5⟩].map fun m : Metric => recordOf "" m m))).body.length :=
      calc BodyFault.limit
        _ = name.length := hlength.symm
        _ < _ := Record.length_id_lt_length_writeAll (r := recordOf "" ⟨name, .counter 5⟩ _)
          List.mem_cons_self
        _ ≤ _ := Utf8.length_le_length_encode _
    rw [respondAt_updateBatch_of_fault
      (Request.readJson_of_tooLong (Request.announcesJson_posting _) hlong)]
    exact ⟨rfl, rfl⟩

end Collector

end Telemetry
