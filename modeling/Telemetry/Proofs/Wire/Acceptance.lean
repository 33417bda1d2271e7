-- SUMMARY: Which records a converter accepts, as which metrics, and which of several faults it reports.
import Telemetry.Proofs.Wire.Conversion

/-!
# Acceptance

A record is accepted if it has an id, a type that is known, the value that the type selects, and no
signature that its key refuses. The checks have an order: of several faults the one whose check comes first
is reported. A signature matters only under a key, and the value of the other kind never.
-/

namespace Telemetry.Wire.Converter

variable {key : String} {r : Record} {m : Metric}

-- ---------------------------------------------------------------------------
-- Faults
-- ---------------------------------------------------------------------------

/-- A check that a record does not pass, by its place in the order of checks, with the cause that it gives. -/
inductive Fault (key : String) (r : Record) : (place : Nat) → Cause → Prop where
  | emptyId (id : r.id = "") : Fault key r 0 (.validation "metric id is empty")
  | emptyType (type : r.type = "") : Fault key r 1 (.validation "metric type is empty")
  | unknownType (counter : r.type ≠ "counter") (gauge : r.type ≠ "gauge") :
    Fault key r 2 (.unknownType r.type)
  | missingDelta (type : r.type = "counter") (delta : r.delta = none) :
    Fault key r 3 (.valueMissing r.id)
  | missingLevel (type : r.type = "gauge") (value : r.value = none) : Fault key r 3 (.valueMissing r.id)
  | undecodable {text : String} {fault : HexFault} (keyed : key ≠ "") (hash : r.hash = some text)
      (nonempty : text ≠ "") (malformed : Hex.decode text = .error fault) :
    Fault key r 4 (.signatureDecode fault)
  | wrong {text : String} {supplied : List UInt8} {m : Metric} (keyed : key ≠ "")
      (hash : r.hash = some text) (nonempty : text ≠ "") (decoded : Hex.decode text = .ok supplied)
      (stands : StandsFor r m) (differs : supplied ≠ Signer.signature key m) :
    Fault key r 5 (.invalidSignature r.id)

/-- No check with an earlier place fails. -/
def FirstFault (key : String) (r : Record) (c : Cause) : Prop :=
  ∃ place, Fault key r place c ∧ ∀ place' c', Fault key r place' c' → place ≤ place'

/-- A check has one cause to give. -/
theorem Fault.cause_unique {place : Nat} {c c' : Cause} (h : Fault key r place c)
    (h' : Fault key r place c') : c = c' := by
  cases h with
  | undecodable _ hash _ malformed =>
    cases h' with
    | undecodable _ hash' _ malformed' =>
      cases hash.symm.trans hash'
      cases malformed.symm.trans malformed'
      rfl
  | _ => cases h' <;> rfl

theorem FirstFault.unique {c c' : Cause} (h : FirstFault key r c) (h' : FirstFault key r c') :
    c = c' := by
  obtain ⟨place, hfault, hfirst⟩ := h
  obtain ⟨place', hfault', hfirst'⟩ := h'
  obtain rfl := Nat.le_antisymm (hfirst _ _ hfault') (hfirst' _ _ hfault)
  exact hfault.cause_unique hfault'

-- ---------------------------------------------------------------------------
-- Places of faults
-- ---------------------------------------------------------------------------

variable {place : Nat} {c : Cause}

theorem Fault.one_le (h : Fault key r place c) (hid : r.id ≠ "") : 1 ≤ place := by
  cases h with
  | emptyId id => exact absurd id hid
  | _ => decide

theorem Fault.two_le (h : Fault key r place c) (hid : r.id ≠ "") (htype : r.type ≠ "") :
    2 ≤ place := by
  cases h with
  | emptyId id => exact absurd id hid
  | emptyType type => exact absurd type htype
  | _ => decide

theorem Fault.three_le {k : Kind} (h : Fault key r place c) (hid : r.id ≠ "") (htype : r.type = k.name) :
    3 ≤ place := by
  cases h with
  | emptyId id => exact absurd id hid
  | emptyType type => exact absurd (htype.symm.trans type) k.name_ne_empty
  | unknownType counter gauge =>
    cases k with
    | counter => exact absurd htype counter
    | gauge => exact absurd htype gauge
  | _ => decide

/-- The record of a counter has a delta, the record of a gauge a value. -/
theorem standsFor_iff :
    StandsFor r m ↔
      r.type = "counter" ∧ (∃ delta, r.delta = some delta ∧ m = ⟨r.id, .counter delta⟩) ∨
        r.type = "gauge" ∧ ∃ level, r.value = some level ∧ m = ⟨r.id, .gauge level⟩ := by
  constructor
  · rintro ⟨hid, htype, hvalue⟩
    obtain ⟨name, value⟩ := m
    cases value with
    | counter count =>
      obtain ⟨delta, hdelta, heq⟩ := Option.map_eq_some_iff.mp hvalue
      cases heq
      exact .inl ⟨htype, count, hdelta, by rw [hid]⟩
    | gauge x =>
      obtain ⟨level, hlevel, heq⟩ := Option.map_eq_some_iff.mp hvalue
      cases heq
      exact .inr ⟨htype, x, hlevel, by rw [hid]⟩
  · rintro (⟨htype, delta, hdelta, rfl⟩ | ⟨htype, level, hlevel, rfl⟩)
    · exact ⟨rfl, htype, Option.map_eq_some_iff.mpr ⟨delta, hdelta, rfl⟩⟩
    · exact ⟨rfl, htype, Option.map_eq_some_iff.mpr ⟨level, hlevel, rfl⟩⟩

theorem Fault.four_le (h : Fault key r place c) (hid : r.id ≠ "") (hstands : StandsFor r m) :
    4 ≤ place := by
  have hthree := h.three_le hid hstands.type
  cases h with
  | missingDelta type delta =>
    rcases standsFor_iff.mp hstands with ⟨-, _, hdelta, -⟩ | ⟨htype, -⟩
    · exact nomatch delta.symm.trans hdelta
    · exact absurd (type.symm.trans htype) (by decide)
  | missingLevel type value =>
    rcases standsFor_iff.mp hstands with ⟨htype, -⟩ | ⟨-, _, hlevel, -⟩
    · exact absurd (type.symm.trans htype) (by decide)
    · exact nomatch value.symm.trans hlevel
  | undecodable => decide
  | wrong => decide
  | _ => exact absurd hthree (by decide)

theorem Fault.five_le {text : String} {supplied : List UInt8} (h : Fault key r place c) (hid : r.id ≠ "")
    (hstands : StandsFor r m) (hhash : r.hash = some text) (htext : Hex.decode text = .ok supplied) :
    5 ≤ place := by
  have hfour := h.four_le hid hstands
  cases h with
  | undecodable _ hash _ malformed =>
    cases hash.symm.trans hhash
    exact nomatch malformed.symm.trans htext
  | wrong => decide
  | _ => exact absurd hfour (by decide)

-- ---------------------------------------------------------------------------
-- Checks
-- ---------------------------------------------------------------------------

/-- The signature that a record carries is the one of a metric, if there is a key. -/
def Signed (key : String) (r : Record) (m : Metric) : Prop :=
  key ≠ "" → ∀ text, r.hash = some text → text ≠ "" →
    ¬ Hex.Malformed text ∧ Hex.decode text = .ok (Signer.signature key m)

/-- A record that stands for a metric under the right signature passes all checks. -/
theorem not_fault (hid : r.id ≠ "") (hstands : StandsFor r m) (hsigned : Signed key r m) :
    ¬ Fault key r place c := by
  intro h
  have hfour := h.four_le hid hstands
  cases h with
  | undecodable keyed hash nonempty malformed =>
    exact nomatch malformed.symm.trans (hsigned keyed _ hash nonempty).2
  | wrong keyed hash nonempty decoded stands differs =>
    obtain rfl := hstands.unique stands
    cases decoded.symm.trans (hsigned keyed _ hash nonempty).2
    exact differs rfl
  | _ => exact absurd hfour (by decide)

theorem readMetric_of_empty_id (hid : r.id = "") :
    readMetric r = fail (.validation "metric id is empty") := by
  unfold readMetric
  rw [if_pos (String.isEmpty_iff.mpr hid)]
  rfl

theorem readMetric_of_empty_type (hid : r.id ≠ "") (htype : r.type = "") :
    readMetric r = fail (.validation "metric type is empty") := by
  unfold readMetric
  rw [if_neg (hid ∘ String.isEmpty_iff.mp), if_pos (String.isEmpty_iff.mpr htype)]
  rfl

theorem readMetric_of_unknown_type (hid : r.id ≠ "") (htype : r.type ≠ "")
    (hkind : Kind.ofName? r.type = none) : readMetric r = fail (.unknownType r.type) := by
  unfold readMetric Kind.read
  rw [if_neg (hid ∘ String.isEmpty_iff.mp), if_neg (htype ∘ String.isEmpty_iff.mp), hkind]
  rfl

theorem readMetric_of_missing_value {k : Kind} (hid : r.id ≠ "") (htype : r.type = k.name)
    (hvalue : selectedValue r k = none) :
    readMetric r = within "convert metric" (fail (.valueMissing r.id)) := by
  have hne : r.type ≠ "" := htype ▸ k.name_ne_empty
  unfold readMetric
  rw [if_neg (hid ∘ String.isEmpty_iff.mp), if_neg (hne ∘ String.isEmpty_iff.mp),
    Kind.read_eq_ok_iff.mpr htype]
  dsimp only [ok_bind]
  rw [hvalue]

/-- A record is read as a metric, or it has a fault before its signature is looked at. -/
theorem readMetric_cases (r : Record) :
    (∃ m, readMetric r = .ok m) ∨
      ∃ e, readMetric r = .error e ∧ ∀ key, FirstFault key r e.cause := by
  by_cases hid : r.id = ""
  · exact .inr ⟨_, readMetric_of_empty_id hid, fun key => ⟨0, .emptyId hid, fun _ _ _ => Nat.zero_le _⟩⟩
  by_cases htype : r.type = ""
  · exact .inr ⟨_, readMetric_of_empty_type hid htype,
      fun key => ⟨1, .emptyType htype, fun _ _ h => h.one_le hid⟩⟩
  cases hkind : Kind.ofName? r.type with
  | none =>
    have hne : ∀ k : Kind, r.type ≠ k.name := fun k heq =>
      nomatch hkind.symm.trans (Kind.ofName?_eq_some_iff.mpr heq)
    exact .inr ⟨_, readMetric_of_unknown_type hid htype hkind,
      fun key => ⟨2, .unknownType (hne .counter) (hne .gauge), fun _ _ h => h.two_le hid htype⟩⟩
  | some k =>
    have hname := Kind.ofName?_eq_some_iff.mp hkind
    cases hvalue : selectedValue r k with
    | none =>
      refine .inr ⟨_, readMetric_of_missing_value hid hname hvalue,
        fun key => ⟨3, ?_, fun _ _ h => h.three_le hid hname⟩⟩
      cases k with
      | counter => exact .missingDelta hname (Option.map_eq_none_iff.mp hvalue)
      | gauge => exact .missingLevel hname (Option.map_eq_none_iff.mp hvalue)
    | some value =>
      obtain rfl := kind_of_selectedValue hvalue
      exact .inl ⟨⟨r.id, value⟩, readMetric_eq_ok_iff.mpr ⟨hid, rfl, hname, hvalue⟩⟩

theorem decode_of_undecodable (hkey : key ≠ "") (hread : readMetric r = .ok m) {text : String}
    (htext : r.signature? = some text) {fault : HexFault} (hfault : Hex.decode text = .error fault) :
    (ofKey key).decode r = .error ⟨["check signature"], .signatureDecode fault⟩ := by
  unfold decode checkSignature Signer.check
  rw [hread, signs_ofKey, decide_eq_true hkey, htext]
  dsimp only [ok_bind]
  rw [hfault]
  rfl

/-- A record that is read as a metric is accepted as this metric, or its signature has a fault. -/
theorem decode_cases_of_readMetric (key : String) (hread : readMetric r = .ok m) :
    (ofKey key).decode r = .ok m ∧ Signed key r m ∨
      ∃ e, (ofKey key).decode r = .error e ∧ FirstFault key r e.cause := by
  obtain ⟨hid, hstands⟩ := readMetric_eq_ok_iff.mp hread
  by_cases hkey : key = ""
  · exact .inl ⟨decode_ofKey_eq_ok_iff.mpr ⟨hread, fun hne => absurd hkey hne⟩,
      fun hne => absurd hkey hne⟩
  cases hsignature : r.signature? with
  | none =>
    refine .inl ⟨decode_ofKey_eq_ok_iff.mpr ⟨hread, fun _ text h => ?_⟩, fun _ text hhash hne => ?_⟩
    · exact nomatch hsignature.symm.trans h
    · exact nomatch hsignature.symm.trans (Record.signature?_eq_some_iff.mpr ⟨hhash, hne⟩)
  | some text =>
    obtain ⟨hhash, hne⟩ := Record.signature?_eq_some_iff.mp hsignature
    cases htext : Hex.decode text with
    | error fault =>
      exact .inr ⟨_, decode_of_undecodable hkey hread hsignature htext, 4,
        .undecodable hkey hhash hne htext, fun _ _ h => h.four_le hid hstands⟩
    | ok supplied =>
      have hdecode := decode_ofKey_of_signature hkey hread hsignature htext
      by_cases hsame : Signer.signature key m = supplied
      · refine .inl ⟨hdecode.trans (if_pos hsame), fun _ other hother _ => ?_⟩
        cases hhash.symm.trans hother
        exact ⟨Hex.exists_decode_eq_ok_iff.mp ⟨_, htext⟩, hsame ▸ htext⟩
      · exact .inr ⟨_, hdecode.trans (if_neg hsame), 5,
          .wrong hkey hhash hne htext hstands (Ne.symm hsame), fun _ _ h => h.five_le hid hstands hhash htext⟩

/-- A record is accepted as the metric that it stands for under the right signature, or the first of its
    faults is reported. -/
theorem decode_cases (key : String) (r : Record) :
    (∃ m, (ofKey key).decode r = .ok m ∧ r.id ≠ "" ∧ StandsFor r m ∧ Signed key r m) ∨
      ∃ e, (ofKey key).decode r = .error e ∧ FirstFault key r e.cause := by
  rcases readMetric_cases r with ⟨m, hread⟩ | ⟨e, hread, hfirst⟩
  · obtain ⟨hid, hstands⟩ := readMetric_eq_ok_iff.mp hread
    rcases decode_cases_of_readMetric key hread with ⟨hdecode, hsigned⟩ | herror
    · exact .inl ⟨m, hdecode, hid, hstands, hsigned⟩
    · exact .inr herror
  · refine .inr ⟨e, ?_, hfirst key⟩
    unfold decode
    rw [hread, error_bind]

-- ---------------------------------------------------------------------------
-- What does not matter
-- ---------------------------------------------------------------------------

theorem selectedValue_selected {k : Kind} (htype : r.type = k.name) :
    selectedValue r.selected k = selectedValue r k := by
  cases k with
  | counter => exact congrArg (Option.map Value.counter) (if_pos htype)
  | gauge => exact congrArg (Option.map Value.gauge) (if_pos htype)

/-- The value of the other kind does not matter. -/
theorem decode_selected (key : String) (r : Record) :
    (ofKey key).decode r.selected = (ofKey key).decode r := by
  have hread : readMetric r.selected = readMetric r := by
    unfold readMetric
    cases hkind : Kind.read r.type with
    | error e =>
      have hkind' : Kind.read r.selected.type = .error e := hkind
      rw [hkind']
      rfl
    | ok k =>
      have hkind' : Kind.read r.selected.type = .ok k := hkind
      rw [hkind', ok_bind, ok_bind, selectedValue_selected (Kind.read_eq_ok_iff.mp hkind)]
      rfl
  unfold decode
  rw [hread]
  rfl

/-- Without a key the signature does not matter. -/
theorem decode_disabled_of_hash (r : Record) (hash : Option String) :
    (ofKey "").decode { r with hash } = (ofKey "").decode r := rfl

/-- A record is accepted exactly if it has an id, the type of a counter and a delta or the type of a gauge
    and a value, and under a key no signature other than the hexadecimal text, in either case, of the digest
    of the canonical text. What it is accepted as has the id and this value. Otherwise the cause of the error
    is that of the first fault, in the order: no id, no type, a type that is unknown, a missing value, a
    signature that is no hexadecimal text, a signature that is wrong. The value of the other kind does not
    matter, and without a key the signature does not either. -/
theorem decode_accepts_or_reports_first_fault (key : String) (r : Record) :
    (∀ m, (ofKey key).decode r = .ok m ↔
      r.id ≠ "" ∧
      (r.type = "counter" ∧ (∃ delta, r.delta = some delta ∧ m = ⟨r.id, .counter delta⟩) ∨
        r.type = "gauge" ∧ ∃ level, r.value = some level ∧ m = ⟨r.id, .gauge level⟩) ∧
      (key ≠ "" → ∀ text, r.hash = some text → text ≠ "" →
        ¬ Hex.Malformed text ∧ Hex.decode text = .ok (Signer.signature key m))) ∧
    (∀ c, (∃ e, (ofKey key).decode r = .error e ∧ e.cause = c) ↔ FirstFault key r c) ∧
    (ofKey key).decode r.selected = (ofKey key).decode r ∧
    ∀ hash, (ofKey "").decode { r with hash } = (ofKey "").decode r := by
  refine ⟨fun m => ?accepted, fun c => ?refused, decode_selected key r, decode_disabled_of_hash r⟩
  case accepted =>
    rw [← standsFor_iff]
    constructor
    · intro h
      rcases decode_cases key r with ⟨m', hdecode, haccepted⟩ | ⟨e, herror, -⟩
      · cases hdecode.symm.trans h
        exact haccepted
      · exact nomatch herror.symm.trans h
    · rintro ⟨hid, hstands, hsigned⟩
      rcases decode_cases key r with ⟨m', hdecode, -, hstands', -⟩ | ⟨e, -, place, hfault, -⟩
      · rw [hdecode, hstands.unique hstands']
      · exact absurd hfault (not_fault hid hstands hsigned)
  case refused =>
    constructor
    · rintro ⟨e, herror, rfl⟩
      rcases decode_cases key r with ⟨m, hdecode, -⟩ | ⟨e', herror', hfirst⟩
      · exact nomatch hdecode.symm.trans herror
      · cases herror'.symm.trans herror
        exact hfirst
    · intro hfirst
      rcases decode_cases key r with ⟨m, -, hid, hstands, hsigned⟩ | ⟨e, herror, hfirst'⟩
      · obtain ⟨place, hfault, -⟩ := hfirst
        exact absurd hfault (not_fault hid hstands hsigned)
      · exact ⟨e, herror, hfirst'.unique hfirst⟩

/-- A signed counter with a level is accepted as the counter. With no id, another type and a hash that is no
    hexadecimal text, the missing id is reported, and with an id the type. -/
theorem decode_accepts_or_reports_first_fault_mixed :
    let m : Metric := ⟨"a", .counter 5⟩
    (ofKey "k").decode ⟨"a", "counter", some 5, some .nan, some (Signer.signatureText "k" m)⟩ = .ok m ∧
    (∃ e, (ofKey "k").decode ⟨"", "timer", none, none, some "zz"⟩ = .error e ∧
      e.cause = .validation "metric id is empty") ∧
    ∃ e, (ofKey "k").decode ⟨"a", "timer", none, none, some "zz"⟩ = .error e ∧
      e.cause = .unknownType "timer" := by
  intro m
  refine ⟨?_, ?_, ?_⟩
  · refine ((decode_accepts_or_reports_first_fault "k" _).1 m).mpr
      ⟨by decide, .inl ⟨rfl, 5, rfl, rfl⟩, fun _ text htext _ => ?_⟩
    cases htext
    have hdecode := Hex.decode_encode (Signer.signature "k" m)
    exact ⟨Hex.exists_decode_eq_ok_iff.mp ⟨_, hdecode⟩, hdecode⟩
  · exact ((decode_accepts_or_reports_first_fault "k" _).2.1 _).mpr
      ⟨0, .emptyId rfl, fun _ _ _ => Nat.zero_le _⟩
  · exact ((decode_accepts_or_reports_first_fault "k" _).2.1 _).mpr
      ⟨2, .unknownType (by decide) (by decide), fun _ _ h => h.two_le (by decide) (by decide)⟩

end Telemetry.Wire.Converter
