-- SUMMARY: Records under the signature of another one: they are rejected if they differ in a part that the signature covers.
import Telemetry.Proofs.Metric.CanonicalText
import Telemetry.Proofs.Wire.Conversion

/-!
# Tampering

A signature covers the name, the type and the text of the value that the type selects. Whoever changes
one of these without the key has a record that is rejected, unless the digests collide. The other value
and the places of a gauge after the sixth are not covered.
-/

namespace Telemetry

namespace Signer

set_option maxRecDepth 100000 in
/-- A change of one digit changes the signature. -/
theorem signature_five_ne_six :
    signature "k" ⟨"a", .counter 5⟩ ≠ signature "k" ⟨"a", .counter 6⟩ := by
  unfold signature
  rw [Utf8.toList_toUTF8, Utf8.toList_toUTF8, Utf8.toList_toUTF8]
  decide +kernel

/-- Canonical texts agree exactly if the names, the kinds, and the counts or the six places of the levels
    do, whatever colons the names hold. So, unless digests collide, a signature is accepted for the metrics
    of the same name and kind with such a value, and for no other metric. -/
theorem signature_tells_names_and_kinds_apart (m m' : Metric) :
    (m.canonicalText = m'.canonicalText ↔
      m.name = m'.name ∧ m.kind = m'.kind ∧ m.value.SignedAlike m'.value) ∧
    ∀ key, key ≠ "" → ¬ Collide key m m' →
      ∃ text, ((ofKey key).signHex m).1 = .ok text ∧
        (((ofKey key).check m' text).1 = .ok true ↔
          m.name = m'.name ∧ m.kind = m'.kind ∧ m.value.SignedAlike m'.value) := by
  have htext : m.canonicalText = m'.canonicalText ↔
      m.name = m'.name ∧ m.kind = m'.kind ∧ m.value.SignedAlike m'.value := by
    rw [Metric.canonicalText_eq_iff]
    exact and_congr_right fun _ => and_congr_right fun hkind => Value.signedText_eq_iff hkind
  refine ⟨htext, fun key hkey hcollide => ⟨signatureText key m, by rw [signHex_ofKey hkey], ?_⟩⟩
  have hcheck : (ofKey key).check m' (signatureText key m) =
      (.ok (decide (signature key m' = signature key m)), ofKey key) :=
    check_ofKey hkey m' (Hex.decode_encode (signature key m))
  rw [hcheck, ← htext, ← signature_eq_iff hcollide, Except.ok.injEq, decide_eq_true_iff, eq_comm]

/-- A name that ends like a canonical text makes another text than the name without its end, and the
    signature of a counter at five is not accepted for the counter at six. -/
theorem signature_tells_names_and_kinds_apart_colons :
    (Metric.mk "a:counter:1" (.counter 5)).canonicalText ≠
      (Metric.mk "a" (.counter 5)).canonicalText ∧
    "k" ≠ "" ∧ ¬ Collide "k" ⟨"a", .counter 5⟩ ⟨"a", .counter 6⟩ ∧
    ∃ text, ((ofKey "k").signHex ⟨"a", .counter 5⟩).1 = .ok text ∧
      ((ofKey "k").check ⟨"a", .counter 6⟩ text).1 ≠ .ok true := by
  have hcollide : ¬ Collide "k" ⟨"a", .counter 5⟩ ⟨"a", .counter 6⟩ :=
    fun h => signature_five_ne_six h.2
  obtain ⟨text, htext, hcheck⟩ :=
    (signature_tells_names_and_kinds_apart ⟨"a", .counter 5⟩ ⟨"a", .counter 6⟩).2 "k" (by decide)
      hcollide
  refine ⟨fun h => ?_, by decide, hcollide, text, htext, fun h => ?_⟩
  · exact absurd ((signature_tells_names_and_kinds_apart _ _).1.mp h).1 (by decide)
  · have hcount : (5 : Int64).toInt ≠ (6 : Int64).toInt := by decide
    exact hcount (hcheck.mp h).2.2

end Signer

namespace Wire

namespace Record

/-- Records that agree in what a signature covers: name, type, and of the value that the type selects the
delta or the text with six places. -/
structure SignedAlike (r r' : Record) : Prop where
  id : r.id = r'.id
  type : r.type = r'.type
  delta : r.type = Kind.counter.name → r.delta = r'.delta
  value : r.type = Kind.gauge.name → r.value.map (·.fixed 6) = r'.value.map (·.fixed 6)

end Record

namespace Converter

theorem StandsFor.delta {r : Record} {m : Metric} (h : StandsFor r m) (hkind : m.kind = .counter) :
    ∃ count, r.delta = some count ∧ Value.counter count = m.value := by
  have hvalue := h.value
  rw [hkind] at hvalue
  exact Option.map_eq_some_iff.mp hvalue

theorem StandsFor.level {r : Record} {m : Metric} (h : StandsFor r m) (hkind : m.kind = .gauge) :
    ∃ level, r.value = some level ∧ Value.gauge level = m.value := by
  have hvalue := h.value
  rw [hkind] at hvalue
  exact Option.map_eq_some_iff.mp hvalue

/-- Records are signed alike exactly if their metrics have the same canonical text. -/
theorem signedAlike_iff {r r' : Record} {m m' : Metric} (h : StandsFor r m) (h' : StandsFor r' m') :
    r.SignedAlike r' ↔ m.canonicalText = m'.canonicalText := by
  rw [Metric.canonicalText_eq_iff, ← h.id, ← h'.id]
  -- Either way the kinds are the same, so that both records select the same part.
  constructor
  · rintro ⟨hid, htype, hdelta, hlevel⟩
    have hkind : m.kind = m'.kind :=
      Kind.name_injective (h.type.symm.trans (htype.trans h'.type))
    refine ⟨hid, hkind, ?_⟩
    cases hm : m.kind with
    | counter =>
      obtain ⟨count, hcount, hvalue⟩ := h.delta hm
      obtain ⟨count', hcount', hvalue'⟩ := h'.delta (hkind ▸ hm)
      have hsame := hdelta (hm ▸ h.type)
      rw [hcount, hcount', Option.some.injEq] at hsame
      rw [← hvalue, ← hvalue', hsame]
    | gauge =>
      obtain ⟨level, hx, hvalue⟩ := h.level hm
      obtain ⟨level', hx', hvalue'⟩ := h'.level (hkind ▸ hm)
      have hsame := hlevel (hm ▸ h.type)
      rw [hx, hx'] at hsame
      rw [← hvalue, ← hvalue']
      exact Option.some.inj hsame
  · rintro ⟨hid, hkind, htext⟩
    refine ⟨hid, ?_, fun hcounter => ?_, fun hgauge => ?_⟩
    · rw [h.type, h'.type, hkind]
    · have hm : m.kind = .counter := Kind.name_injective (h.type.symm.trans hcounter)
      obtain ⟨count, hcount, hvalue⟩ := h.delta hm
      obtain ⟨count', hcount', hvalue'⟩ := h'.delta (hkind ▸ hm)
      rw [← hvalue, ← hvalue', Value.signedText_counter_inj] at htext
      rw [hcount, hcount', htext]
    · have hm : m.kind = .gauge := Kind.name_injective (h.type.symm.trans hgauge)
      obtain ⟨level, hx, hvalue⟩ := h.level hm
      obtain ⟨level', hx', hvalue'⟩ := h'.level (hkind ▸ hm)
      rw [← hvalue, ← hvalue'] at htext
      rw [hx, hx']
      exact congrArg some htext

/-- A record that stands for a metric under the signature of another one is rejected exactly if the two
differ in what the signature covers, unless the digests collide. -/
theorem altered_record_is_rejected_iff {key : String} (hkey : key ≠ "") {m m' : Metric}
    {r r' : Record} (hencode : (ofKey key).encode m = .ok r) (hread : readMetric r' = .ok m')
    (hhash : r'.hash = r.hash) (hcollide : ¬ Signer.Collide key m m') :
    (ofKey key).decode r' = .error ⟨["check signature"], .invalidSignature r'.id⟩ ↔
      ¬ r.SignedAlike r' := by
  obtain rfl : recordOf key m m = r :=
    Except.ok.inj ((encodeReadings_ofKey key m m).symm.trans hencode)
  have hsignature : r'.signature? = some (Signer.signatureText key m) := by
    unfold Record.signature?
    rw [hhash]
    exact signature?_recordOf hkey m m
  have hstands' := (readMetric_eq_ok_iff.mp hread).2
  rw [decode_ofKey_of_signature hkey hread hsignature (Hex.decode_encode _),
    signedAlike_iff (standsFor_recordOf key m m) hstands', ← Signer.signature_eq_iff hcollide]
  split <;> rename_i hsame
  · exact ⟨(nomatch ·), fun h => absurd hsame.symm h⟩
  · exact ⟨fun _ h => hsame h.symm, fun _ => rfl⟩

/-- The record of a counter with another delta is rejected. -/
theorem altered_counter_is_rejected :
    ¬ Signer.Collide "k" ⟨"a", .counter 5⟩ ⟨"a", .counter 6⟩ ∧
    ∃ r, (ofKey "k").encode ⟨"a", .counter 5⟩ = .ok r ∧
      readMetric { r with delta := some 6 } = .ok ⟨"a", .counter 6⟩ ∧
      (ofKey "k").decode { r with delta := some 6 } =
        .error ⟨["check signature"], .invalidSignature "a"⟩ := by
  have hcollide : ¬ Signer.Collide "k" ⟨"a", .counter 5⟩ ⟨"a", .counter 6⟩ :=
    fun h => Signer.signature_five_ne_six h.2
  have hread : readMetric { recordOf "k" ⟨"a", .counter 5⟩ ⟨"a", .counter 5⟩ with delta := some 6 } =
      .ok ⟨"a", .counter 6⟩ := rfl
  refine ⟨hcollide, _, encodeReadings_ofKey _ _ _, hread, ?_⟩
  refine (altered_record_is_rejected_iff (by decide) (encodeReadings_ofKey _ _ _) hread rfl
    hcollide).mpr fun h => ?_
  exact absurd (h.delta rfl) (by decide)

/-- The signature of a gauge at one is accepted for a gauge at one and a ten-millionth. -/
theorem gauge_altered_beyond_six_places_is_accepted :
    ∃ r, (ofKey "k").encode ⟨"g", .gauge (.ofNat 1)⟩ = .ok r ∧
      (Binary64.ofNat 1).numericEq (.ofRatio false 10000001 10000000) = false ∧
      (ofKey "k").decode { r with value := some (.ofRatio false 10000001 10000000) } =
        .ok ⟨"g", .gauge (.ofRatio false 10000001 10000000)⟩ := by
  have hplaces : (Binary64.ofNat 1).fixed 6 = (Binary64.ofRatio false 10000001 10000000).fixed 6 := by
    decide +kernel
  have htext : (Metric.mk "g" (.gauge (.ofNat 1))).canonicalText =
      (Metric.mk "g" (.gauge (.ofRatio false 10000001 10000000))).canonicalText :=
    Metric.canonicalText_eq_iff.mpr ⟨rfl, rfl, hplaces⟩
  refine ⟨_, encodeReadings_ofKey _ _ _, by decide +kernel, decode_ofKey_eq_ok_iff.mpr ⟨rfl, ?_⟩⟩
  rintro - text htext'
  have hhash := (Record.signature?_eq_some_iff.mp htext').1
  cases hhash
  unfold Signer.signatureText Signer.signature
  rw [htext]
  exact Hex.toLower_encode _

end Converter

end Wire

end Telemetry
