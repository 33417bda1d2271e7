-- SUMMARY: Converting metrics and records: what a key accepts, and that nothing is lost or invented in either direction.
import Telemetry.Proofs.Wire.Signing
import Telemetry.Wire.Converter

/-!
# Conversion

A record is accepted as a metric if its parts are those of the metric and its signature, if it carries
one and there is a key, is the one of the metric. So the record of a metric is accepted as this metric, and
the record of an accepted metric is the one it came from, apart from the value of the other kind and the
signature.
-/

namespace Telemetry.Wire

namespace Record

/-- The record with the value of the other kind left out. -/
def selected (r : Record) : Record :=
  { r with
    delta := if r.type = Kind.counter.name then r.delta else none
    value := if r.type = Kind.gauge.name then r.value else none }

theorem signature?_eq_some_iff {r : Record} {text : String} :
    r.signature? = some text ↔ r.hash = some text ∧ text ≠ "" := by
  unfold signature?
  rw [Option.filter_eq_some_iff, Bool.not_eq_true', String.isEmpty_eq_false_iff]

end Record

namespace Converter

/-! ## The metric of a record -/

theorem kind_of_selectedValue {r : Record} {k : Kind} {v : Value} (h : selectedValue r k = some v) :
    v.kind = k := by
  cases k with
  | counter =>
    obtain ⟨delta, -, rfl⟩ := Option.map_eq_some_iff.mp h
    rfl
  | gauge =>
    obtain ⟨level, -, rfl⟩ := Option.map_eq_some_iff.mp h
    rfl

/-- The parts of a record that its type selects are those of a metric. -/
structure StandsFor (r : Record) (m : Metric) : Prop where
  id : r.id = m.name
  type : r.type = m.kind.name
  value : selectedValue r m.kind = some m.value

theorem StandsFor.unique {r : Record} {m m' : Metric} (h : StandsFor r m) (h' : StandsFor r m') :
    m' = m := by
  have hkind : m'.kind = m.kind := Kind.name_injective (h'.type.symm.trans h.type)
  have hvalue : some m'.value = some m.value := h'.value.symm.trans (hkind ▸ h.value)
  obtain ⟨name, value⟩ := m
  obtain ⟨name', value'⟩ := m'
  rw [Metric.mk.injEq]
  exact ⟨h'.id.symm.trans h.id, Option.some.inj hvalue⟩

/-- A record is read as the metric that it stands for, if it has an id. -/
theorem readMetric_eq_ok_iff {r : Record} {m : Metric} :
    readMetric r = .ok m ↔ r.id ≠ "" ∧ StandsFor r m := by
  unfold readMetric
  by_cases hid : r.id = ""
  · rw [if_pos (String.isEmpty_iff.mpr hid)]
    exact ⟨(nomatch ·), fun h => absurd hid h.1⟩
  by_cases htype : r.type = ""
  · rw [if_neg (hid ∘ String.isEmpty_iff.mp), if_pos (String.isEmpty_iff.mpr htype)]
    exact ⟨(nomatch ·), fun h => absurd (h.2.type.symm.trans htype) (Kind.name_ne_empty _)⟩
  rw [if_neg (hid ∘ String.isEmpty_iff.mp), if_neg (htype ∘ String.isEmpty_iff.mp), bind_eq_ok_iff]
  constructor
  · rintro ⟨kind, hkind, h⟩
    split at h <;> rename_i hvalue
    · cases h
      obtain rfl := kind_of_selectedValue hvalue
      exact ⟨hid, rfl, Kind.read_eq_ok_iff.mp hkind, hvalue⟩
    · cases h
  · rintro ⟨-, hname, hkind, hvalue⟩
    refine ⟨m.kind, Kind.read_eq_ok_iff.mpr hkind, ?_⟩
    rw [hvalue, hname]

/-- The record that is made of a metric stands for it, whatever its signature is. -/
theorem standsFor_plainRecord (m : Metric) (hash : Option String) :
    StandsFor { plainRecord m with hash } m := by
  obtain ⟨name, value⟩ := m
  cases value <;> exact ⟨rfl, rfl, rfl⟩

theorem readMetric_plainRecord_eq_ok_iff {m m' : Metric} {hash : Option String} :
    readMetric { plainRecord m with hash } = .ok m' ↔ m.name ≠ "" ∧ m' = m := by
  have hstands := standsFor_plainRecord m hash
  rw [readMetric_eq_ok_iff]
  constructor
  · rintro ⟨hid, h⟩
    exact ⟨hstands.id ▸ hid, hstands.unique h⟩
  · rintro ⟨hname, rfl⟩
    exact ⟨hstands.id ▸ hname, hstands⟩

theorem hash_plainRecord (m : Metric) : (plainRecord m).hash = none := by
  obtain ⟨name, value⟩ := m
  cases value <;> rfl

/-- What the metric of a record keeps of it. -/
theorem plainRecord_of_readMetric {r : Record} {m : Metric} (h : readMetric r = .ok m) :
    plainRecord m = { r.selected with hash := none } := by
  obtain ⟨-, hid, htype, hvalue⟩ := readMetric_eq_ok_iff.mp h
  obtain ⟨name, value⟩ := m
  obtain ⟨id, type, delta, level, hash⟩ := r
  cases value with
  | counter count =>
    obtain ⟨_, hdelta, hcount⟩ := Option.map_eq_some_iff.mp hvalue
    cases hcount
    cases hid
    cases htype
    cases hdelta
    rfl
  | gauge x =>
    obtain ⟨_, hlevel, hx⟩ := Option.map_eq_some_iff.mp hvalue
    cases hx
    cases hid
    cases htype
    cases hlevel
    rfl

/-! ## Records and signatures -/

theorem signs_ofKey (key : String) : (ofKey key).signs = decide (key ≠ "") :=
  Signer.isEnabled_ofKey key

/-- The signature that a record carries under a key. -/
def hashOf (key : String) (m : Metric) : Option String :=
  if key = "" then none else some (Signer.signatureText key m)

/-- The record that shows one reading and is signed for the other. -/
def recordOf (key : String) (shown signed : Metric) : Record :=
  { plainRecord shown with hash := hashOf key signed }

theorem encodeReadings_ofKey (key : String) (shown signed : Metric) :
    (ofKey key).encodeReadings shown signed = .ok (recordOf key shown signed) := by
  unfold encodeReadings recordOf hashOf
  rw [signs_ofKey]
  by_cases hkey : key = ""
  · rw [if_neg (by simp [hkey]), if_pos hkey]
    dsimp only
    rw [← hash_plainRecord shown]
  · rw [if_pos (decide_eq_true hkey), if_neg hkey]
    have hsigned : ((ofKey key).signer.signHex signed).1 = .ok (Signer.signatureText key signed) :=
      congrArg Prod.fst (Signer.signHex_ofKey hkey signed)
    dsimp only
    rw [hsigned]
    rfl

theorem standsFor_recordOf (key : String) (shown signed : Metric) :
    StandsFor (recordOf key shown signed) shown :=
  standsFor_plainRecord shown (hashOf key signed)

theorem signature?_recordOf {key : String} (hkey : key ≠ "") (shown signed : Metric) :
    (recordOf key shown signed).signature? = some (Signer.signatureText key signed) :=
  Record.signature?_eq_some_iff.mpr ⟨if_neg hkey, Signer.signatureText_ne_empty key signed⟩

theorem checkSignature_eq_ok_iff {c : Converter} {m : Metric} {text : String} :
    c.checkSignature m text = .ok () ↔ (c.signer.check m text).1 = .ok true := by
  unfold checkSignature
  rw [within_eq_ok_iff, bind_eq_ok_iff]
  constructor
  · rintro ⟨valid, hvalid, h⟩
    split at h <;> rename_i hverdict
    · rw [hvalid, hverdict]
    · cases h
  · intro h
    exact ⟨true, h, if_pos rfl⟩

/-- A record is accepted if it stands for the metric and carries no signature that is refused. -/
theorem decode_eq_ok_iff {c : Converter} {r : Record} {m : Metric} :
    c.decode r = .ok m ↔
      readMetric r = .ok m ∧
        (c.signs = true → ∀ text ∈ r.signature?, c.checkSignature m text = .ok ()) := by
  unfold decode
  rw [bind_eq_ok_iff]
  constructor
  · rintro ⟨m', hread, h⟩
    cases hsigns : c.signs <;> cases hsignature : r.signature? <;> rw [hsigns, hsignature] at h
    case true.some text =>
      obtain ⟨_, hcheck, h⟩ := bind_eq_ok_iff.mp h
      cases h
      refine ⟨hread, fun _ other hother => ?_⟩
      cases hother
      exact hcheck
    all_goals
      cases h
      exact ⟨hread, by simp⟩
  · rintro ⟨hread, hcheck⟩
    refine ⟨m, hread, ?_⟩
    cases hsigns : c.signs <;> cases hsignature : r.signature?
    case true.some text =>
      dsimp only
      rw [hcheck hsigns text hsignature]
      rfl
    all_goals rfl

/-- Under a key, the right signatures are the hexadecimal texts of the one of the metric. -/
theorem decode_ofKey_eq_ok_iff {key : String} {r : Record} {m : Metric} :
    (ofKey key).decode r = .ok m ↔
      readMetric r = .ok m ∧
        (key ≠ "" → ∀ text ∈ r.signature?, text.toLower = Signer.signatureText key m) := by
  rw [decode_eq_ok_iff, signs_ofKey, decide_eq_true_iff]
  refine and_congr_right fun _ => forall_congr' fun hkey => forall₂_congr fun text _ => ?_
  rw [checkSignature_eq_ok_iff]
  exact Signer.check_ofKey_eq_true_iff hkey m text

/-- What is made of a metric is a record of its parts, with some signature or none. -/
theorem exists_hash_of_encode {c : Converter} {m : Metric} {r : Record} (h : c.encode m = .ok r) :
    ∃ hash, r = { plainRecord m with hash } := by
  unfold encode encodeReadings at h
  dsimp only at h
  split at h
  · obtain ⟨signature, -, h⟩ := bind_eq_ok_iff.mp h
    cases h
    exact ⟨_, rfl⟩
  · cases h
    exact ⟨_, rfl⟩

/-- A record that is accepted stands for the metric that it was made of, whatever the keys are. -/
theorem eq_of_decode_encode {sender receiver : Converter} {m m' : Metric} {r : Record}
    (hencode : sender.encode m = .ok r) (hdecode : receiver.decode r = .ok m') : m' = m := by
  obtain ⟨hash, rfl⟩ := exists_hash_of_encode hencode
  exact (readMetric_plainRecord_eq_ok_iff.mp (decode_eq_ok_iff.mp hdecode).1).2

theorem eq_of_mapM_decode_encode {sender receiver : Converter} {metrics metrics' : List Metric}
    {records : List Record} (hencode : metrics.mapM sender.encode = .ok records)
    (hdecode : records.mapM receiver.decode = .ok metrics') : metrics' = metrics := by
  induction metrics generalizing records metrics' with
  | nil =>
    cases hencode
    cases hdecode
    rfl
  | cons m metrics ih =>
    obtain ⟨r, rest, hr, hrest, rfl⟩ := mapM_cons_eq_ok_iff.mp hencode
    obtain ⟨m₁, others, hm₁, hothers, rfl⟩ := mapM_cons_eq_ok_iff.mp hdecode
    rw [eq_of_decode_encode hr hm₁, ih hrest hothers]

/-- A signature that is a text of bytes is either right or the reason of the refusal. -/
theorem decode_ofKey_of_signature {key : String} (hkey : key ≠ "") {r : Record} {m : Metric}
    (hread : readMetric r = .ok m) {text : String} (htext : r.signature? = some text)
    {supplied : List UInt8} (hsupplied : Hex.decode text = .ok supplied) :
    (ofKey key).decode r =
      if Signer.signature key m = supplied then .ok m
      else .error ⟨["check signature"], .invalidSignature r.id⟩ := by
  have hid := (readMetric_eq_ok_iff.mp hread).2.id
  have hcheck : ((ofKey key).signer.check m text).1 =
      .ok (decide (Signer.signature key m = supplied)) :=
    congrArg Prod.fst (Signer.check_ofKey hkey m hsupplied)
  unfold decode checkSignature
  rw [hread, signs_ofKey, decide_eq_true hkey, htext]
  dsimp only [ok_bind]
  rw [hcheck, hid]
  split <;> rename_i hsame
  · rw [decide_eq_true hsame]
    rfl
  · rw [decide_eq_false hsame]
    rfl

/-- A record that shows one reading and is signed for the other is accepted if both have the same
signature. -/
theorem decode_recordOf {key : String} (hkey : key ≠ "") {shown : Metric} (hname : shown.name ≠ "")
    (signed : Metric) :
    (ofKey key).decode (recordOf key shown signed) =
      if Signer.signature key shown = Signer.signature key signed then .ok shown
      else .error ⟨["check signature"], .invalidSignature shown.name⟩ := by
  have hread : readMetric (recordOf key shown signed) = .ok shown :=
    readMetric_plainRecord_eq_ok_iff.mpr ⟨hname, rfl⟩
  have hid : (recordOf key shown signed).id = shown.name := (standsFor_recordOf key shown signed).id
  rw [decode_ofKey_of_signature hkey hread (signature?_recordOf hkey shown signed)
    (Hex.decode_encode _), hid]

/-! ## Round trips -/

/-- The record of a metric is accepted as this metric. -/
theorem decode_recordOf_self (key : String) {m : Metric} (hname : m.name ≠ "") :
    (ofKey key).decode (recordOf key m m) = .ok m := by
  refine decode_ofKey_eq_ok_iff.mpr
    ⟨readMetric_plainRecord_eq_ok_iff.mpr ⟨hname, rfl⟩, fun hkey text htext => ?_⟩
  cases (signature?_recordOf hkey m m).symm.trans htext
  exact Hex.toLower_encode _

/-- With the same key, the record of a metric is accepted as this metric, and an accepted record is the
record of its metric but for the value of the other kind and the signature. A signature it carried was the
one of the metric, in either case. -/
theorem conversion_loses_nothing (key : String) :
    (∀ m : Metric, m.name ≠ "" →
      ∃ r, (ofKey key).encode m = .ok r ∧ (ofKey key).decode r = .ok m) ∧
    ∀ (r : Record) (m : Metric), (ofKey key).decode r = .ok m →
      (ofKey key).encode m = .ok { r.selected with hash := hashOf key m } ∧
        (key ≠ "" → ∀ hash, r.hash = some hash → hash ≠ "" →
          Signer.signatureText key m = hash.toLower) := by
  constructor
  · intro m hname
    exact ⟨_, encodeReadings_ofKey key m m, decode_recordOf_self key hname⟩
  · intro r m h
    obtain ⟨hread, hsignature⟩ := decode_ofKey_eq_ok_iff.mp h
    constructor
    · have hrecord := encodeReadings_ofKey key m m
      unfold recordOf at hrecord
      rw [plainRecord_of_readMetric hread] at hrecord
      exact hrecord
    · intro hkey hash hhash hne
      exact (hsignature hkey hash (Record.signature?_eq_some_iff.mpr ⟨hhash, hne⟩)).symm

/-- A gauge that is not a number comes back under a key, and its record is the one of what came back. -/
theorem conversion_keeps_nan_gauge :
    "g" ≠ "" ∧ ∃ r, (ofKey "k").encode ⟨"g", .gauge .nan⟩ = .ok r ∧
      (ofKey "k").decode r = .ok ⟨"g", .gauge .nan⟩ ∧
      r = { r.selected with hash := hashOf "k" ⟨"g", .gauge .nan⟩ } := by
  have hname : "g" ≠ "" := by decide
  obtain ⟨hencode, hdecode⟩ := conversion_loses_nothing "k"
  obtain ⟨r, hr, hm⟩ := hencode ⟨"g", .gauge .nan⟩ hname
  have hagain := (hdecode r _ hm).1
  exact ⟨hname, r, hr, hm, Except.ok.inj (hr.symm.trans hagain)⟩

end Converter

end Telemetry.Wire
