-- SUMMARY: Wire records as text: a written record, and a written list of them, reads back as it was but for values that are not finite.
import Mathlib
import Telemetry.Proofs.Json.Layout
import Telemetry.Proofs.Json.Numbers
import Telemetry.Proofs.Text.Utf8
import Telemetry.Wire.Record

/-!
# Records as text

A record is written as a compact object with the fields that are there. A value that is not finite is
written as `null`, which is read as an absent one; everything else comes back.
-/

namespace Telemetry.Wire.Record

open Json (Denotes symbolsOf)

/-- The record as it is read back. -/
def received (r : Record) : Record :=
  { r with value := r.value.filter (·.isFinite) }

/-! ## One record -/

/-- The fields of a record, each with its text and the value that the text denotes. -/
def denotedFields (r : Record) (delta value : Json) : List (String × String × Json) :=
  [("id", Json.writeString r.id, .string (some r.id)),
    ("type", Json.writeString r.type, .string (some r.type))]
    ++ (r.delta.map fun i => ("delta", toString i.toInt, delta)).toList
    ++ (r.value.map fun x => ("value", Json.writeReal x, value)).toList
    ++ (r.hash.map fun hash => ("hash", Json.writeString hash, .string (some hash))).toList

theorem map_denotedFields (r : Record) (delta value : Json) :
    (r.denotedFields delta value).map (fun f => (f.1, f.2.1)) = r.fields := by
  unfold denotedFields fields
  cases r.delta <;> cases r.value <;> cases r.hash <;> rfl

/-- The JSON value of a record, for given values of its numbers. -/
def toJson (r : Record) (delta value : Json) : Json :=
  .object ((r.denotedFields delta value).map fun f => (some f.1, f.2.2))

/-- The names of the fields are known and none stands twice. -/
theorem field?_denotedFields (r : Record) (delta value : Json) :
    let fields := (r.denotedFields delta value).map fun f => (some f.1, f.2.2)
    fields.all (·.1.isSome) = true ∧
      Json.field? "id" fields = some (some (.string (some r.id))) ∧
      Json.field? "type" fields = some (some (.string (some r.type))) ∧
      Json.field? "delta" fields = some (r.delta.map fun _ => delta) ∧
      Json.field? "value" fields = some (r.value.map fun _ => value) ∧
      Json.field? "hash" fields = some (r.hash.map fun hash => .string (some hash)) := by
  unfold denotedFields
  cases r.delta <;> cases r.value <;> cases r.hash <;> exact ⟨rfl, rfl, rfl, rfl, rfl, rfl⟩

/-- An absent part is read as one. -/
theorem optional?_getD {α β : Type} {decode : Json → Option β} {part : Option α} {f : α → Json}
    {g : α → Option β} (h : ∀ a ∈ part, (f a).optional? decode = some (g a)) :
    ((part.map f).getD .null).optional? decode = some (part.bind g) := by
  cases part with
  | none => rfl
  | some a => exact h a rfl

theorem ofJson?_toJson {r : Record} {delta value : Json}
    (hdelta : ∀ i ∈ r.delta, delta.optional? Json.int64? = some (some i))
    (hvalue : ∀ x ∈ r.value,
      value.optional? Json.real? = some (if x.isFinite then some x else none)) :
    ofJson? (r.toJson delta value) = some r.received := by
  obtain ⟨hnames, hid, htype, hdeltaField, hvalueField, hhashField⟩ :=
    r.field?_denotedFields delta value
  have hdelta' := optional?_getD hdelta
  have hvalue' := optional?_getD hvalue
  have hhash' : ((r.hash.map fun hash => Json.string (some hash)).getD .null).optional? Json.text? =
      some (r.hash.bind some) :=
    optional?_getD fun hash _ => rfl
  have hreceived : r.value.bind (fun x => if x.isFinite then some x else none) =
      r.value.filter (·.isFinite) := by
    cases r.value <;> rfl
  unfold ofJson? toJson
  simp only [hnames, hid, htype, hdeltaField, hvalueField, hhashField, guard_true,
    Option.bind_eq_bind, Option.bind_some]
  unfold ofParts?
  rw [hdelta', hvalue', hhash', hreceived, Option.bind_fun_some, Option.bind_fun_some]
  rfl

/-- A written record denotes an object that is read as the record. -/
theorem exists_denotes_write (r : Record) :
    ∃ delta value, Denotes (symbolsOf r.write) (r.toJson delta value) ∧
      ofJson? (r.toJson delta value) = some r.received := by
  obtain ⟨delta, hdelta⟩ : ∃ delta, ∀ i ∈ r.delta,
      Denotes (symbolsOf (toString i.toInt)) delta ∧
        delta.optional? Json.int64? = some (some i) := by
    cases r.delta with
    | none => exact ⟨.null, fun _ h => nomatch h⟩
    | some i =>
      obtain ⟨delta, h⟩ := Json.denotes_int64 i
      exact ⟨delta, fun _ hi => Option.some.inj hi ▸ h⟩
  obtain ⟨value, hvalue⟩ : ∃ value, ∀ x ∈ r.value,
      Denotes (symbolsOf (Json.writeReal x)) value ∧
        value.optional? Json.real? = some (if x.isFinite then some x else none) := by
    cases r.value with
    | none => exact ⟨.null, fun _ h => nomatch h⟩
    | some x =>
      obtain ⟨value, h⟩ := Json.denotes_writeReal x
      exact ⟨value, fun _ hx => Option.some.inj hx ▸ h⟩
  have hfields : ∀ f ∈ r.denotedFields delta value, Denotes (symbolsOf f.2.1) f.2.2 := by
    intro f hf
    simp only [denotedFields, List.mem_append, List.mem_cons, List.not_mem_nil, or_false,
      Option.mem_toList, Option.map_eq_some_iff] at hf
    rcases hf with (((rfl | rfl) | ⟨i, hi, rfl⟩) | ⟨x, hx, rfl⟩) | ⟨hash, -, rfl⟩
    · exact Json.denotes_writeString r.id
    · exact Json.denotes_writeString r.type
    · exact (hdelta i hi).1
    · exact (hvalue x hx).1
    · exact Json.denotes_writeString hash
  have hobject := Json.denotes_compactObject (by simp [denotedFields]) hfields
  rw [map_denotedFields] at hobject
  exact ⟨delta, value, hobject,
    ofJson?_toJson (fun i hi => (hdelta i hi).2) fun x hx => (hvalue x hx).2⟩

/-! ## Lists of records -/

/-- A written list denotes a value that is read as the list. -/
theorem exists_denotes_writeAll (records : List Record) :
    ∃ v, Denotes (symbolsOf (writeAll records)) v ∧
      listOfJson? v = some (records.map received) := by
  obtain ⟨items, htexts, hdenotes, hread⟩ : ∃ items : List (String × Json),
      items.map (·.1) = records.map write ∧ (∀ p ∈ items, Denotes (symbolsOf p.1) p.2) ∧
        (items.map (·.2)).mapM ofJson? = some (records.map received) := by
    induction records with
    | nil => exact ⟨[], rfl, fun _ h => (nomatch h), rfl⟩
    | cons r records ih =>
      obtain ⟨items, htexts, hdenotes, hread⟩ := ih
      obtain ⟨delta, value, hv, hr⟩ := exists_denotes_write r
      refine ⟨(r.write, r.toJson delta value) :: items, ?_, ?_, ?_⟩
      · rw [List.map_cons, List.map_cons, htexts]
      · exact List.forall_mem_cons.mpr ⟨hv, hdenotes⟩
      · rw [List.map_cons, List.mapM_cons, hr, hread]
        rfl
  have harray := Json.denotes_compactArray hdenotes
  rw [htexts] at harray
  exact ⟨_, harray, hread⟩

/-- The text of a list is longer than the id of any of its records. -/
theorem length_id_lt_length_writeAll {records : List Record} {r : Record} (h : r ∈ records) :
    r.id.length < (writeAll records).length := by
  have hid : Json.writeField "id" (Json.writeString r.id) ∈
      r.fields.map fun f => Json.writeField f.1 f.2 := by
    simp [fields]
  calc r.id.length
    _ < (Json.writeString r.id).length := Json.length_lt_length_writeString r.id
    _ ≤ (Json.writeField "id" (Json.writeString r.id)).length := by
      simp [Json.writeField, String.length_append]
    _ ≤ r.write.length := by
      have := Json.length_le_length_intercalate "," hid
      simp only [write, Json.compactObject, String.length_append]
      omega
    _ ≤ (writeAll records).length := by
      have := Json.length_le_length_intercalate "," (List.mem_map_of_mem (f := write) h)
      simp only [writeAll, Json.compactArray, String.length_append]
      omega

/-! ## Texts and bytes -/

theorem readText?_of_denotes {text : String} {v : Json} (h : Denotes (symbolsOf text) v) :
    Json.readText? text = some v := by
  have hread := Json.read?_of_denotes h fun s (hs : s ∈ []) => nomatch hs
  rwa [List.append_nil] at hread

theorem readBytes?_encode (text : String) :
    Json.readBytes? (Utf8.encode text) = Json.readText? text := by
  unfold Json.readBytes? Utf8.encode
  rw [Utf8.symbols_toUTF8]
  rfl

/-- The text of a list of records reads back as the list. -/
theorem listOfJson?_readText?_writeAll (records : List Record) :
    (Json.readText? (writeAll records)).bind listOfJson? = some (records.map received) := by
  obtain ⟨v, hv, hread⟩ := exists_denotes_writeAll records
  simpa [readText?_of_denotes hv] using hread

/-- The bytes of a written list of records read back as the list. -/
theorem listOfJson?_encode_writeAll (records : List Record) :
    (Json.readBytes? (Utf8.encode (writeAll records))).bind listOfJson? =
      some (records.map received) := by
  rw [readBytes?_encode]
  exact listOfJson?_readText?_writeAll records

/-- The fields that the text of a record has: the first two, and those of the parts that are there. -/
def fieldNames (r : Record) : List String :=
  ["id", "type"] ++ (if r.delta.isSome then ["delta"] else [])
    ++ (if r.value.isSome then ["value"] else []) ++ (if r.hash.isSome then ["hash"] else [])

theorem map_name_denotedFields (r : Record) (delta value : Json) :
    (r.denotedFields delta value).map (·.1) = r.fieldNames := by
  unfold denotedFields fieldNames
  cases r.delta <;> cases r.value <;> cases r.hash <;> rfl

/-- The text of a record is an object with a field for each part that is there, and reads back as the
record, except that a value which is not a finite number comes back as an absent one. The same holds for
every record of a list, whether the text or its bytes are read. -/
theorem written_records_read_back :
    (∀ r : Record,
      (∃ fields, Json.readText? r.write = some (.object fields) ∧
        fields.map (·.1) = r.fieldNames.map some) ∧
      (Json.readText? r.write).bind ofJson? =
        some { r with value := r.value.filter (·.isFinite) }) ∧
    (∀ records : List Record,
      (Json.readText? (writeAll records)).bind listOfJson? =
        some (records.map fun r => { r with value := r.value.filter (·.isFinite) })) ∧
    ∀ text : String, Json.readBytes? (Utf8.encode text) = Json.readText? text := by
  refine ⟨fun r => ?_, listOfJson?_readText?_writeAll, readBytes?_encode⟩
  obtain ⟨delta, value, hdenotes, hread⟩ := exists_denotes_write r
  rw [readText?_of_denotes hdenotes]
  refine ⟨⟨_, rfl, ?_⟩, hread⟩
  rw [← map_name_denotedFields r delta value, List.map_map, List.map_map]
  rfl

/-- A level that is not a number is lost, and nothing else, whatever characters the texts have. -/
example :
    (Json.readText? (write ⟨"a\"\u0001", "gauge", some (-3), some .nan, some "é"⟩)).bind ofJson? =
      some ⟨"a\"\u0001", "gauge", some (-3), none, some "é"⟩ := by
  decide +kernel

end Telemetry.Wire.Record
