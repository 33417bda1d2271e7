-- SUMMARY: Backup records as text: a written file of records reads back as the same list.
import Mathlib
import Telemetry.Backup.Record
import Telemetry.Proofs.Json.Layout
import Telemetry.Proofs.Text.Utf8

/-!
# Files of records

A file of records is an indented array of objects with three fields each. Its text denotes the list, its
bytes have the text as their symbols, and it is never taken for a blank file.
-/

namespace Telemetry.Backup.Record

open Json (Denotes symbolsOf)

/-! ## One record -/

/-- The JSON value of a part. -/
def partJson : Option String → Json
  | some text => .string (some text)
  | none => .null

theorem denotes_writePart (part : Option String) :
    Denotes (symbolsOf (writePart part)) (partJson part) := by
  cases part with
  | none => exact Json.denotes_null
  | some text => exact Json.denotes_writeString text

theorem optional?_partJson (part : Option String) :
    (partJson part).optional? Json.text? = some part := by
  cases part <;> rfl

/-- The JSON value of a record. -/
def toJson (r : Record) : Json :=
  .object [(some "types", partJson r.type), (some "name", partJson r.name),
    (some "value", partJson r.value)]

theorem ofJson?_toJson (r : Record) : ofJson? r.toJson = some r := by
  have htypes : Json.field? "types" [(some "types", partJson r.type),
      (some "name", partJson r.name), (some "value", partJson r.value)] =
      some (some (partJson r.type)) := rfl
  have hname : Json.field? "name" [(some "types", partJson r.type),
      (some "name", partJson r.name), (some "value", partJson r.value)] =
      some (some (partJson r.name)) := rfl
  have hvalue : Json.field? "value" [(some "types", partJson r.type),
      (some "name", partJson r.name), (some "value", partJson r.value)] =
      some (some (partJson r.value)) := rfl
  have hparts : ofParts? (partJson r.type) (partJson r.name) (partJson r.value) = some r := by
    unfold ofParts?
    simp only [optional?_partJson, Option.bind_eq_bind, Option.bind_some]
  unfold ofJson? toJson
  simp only [htypes, hname, hvalue]
  exact hparts

/-- The fields of a record, each with its text and the value that the text denotes. -/
def denotedFields (r : Record) : List (String × String × Json) :=
  [("types", writePart r.type, partJson r.type), ("name", writePart r.name, partJson r.name),
    ("value", writePart r.value, partJson r.value)]

/-- An indented record denotes its JSON value. -/
theorem denotes_indentedObject (depth : Nat) (r : Record) :
    Denotes (symbolsOf (Json.indentedObject depth r.fields)) r.toJson := by
  have hne : r.denotedFields ≠ [] := List.cons_ne_nil _ _
  have hparts : ∀ f ∈ r.denotedFields, Denotes (symbolsOf f.2.1) f.2.2 := by
    intro f hf
    simp only [denotedFields, List.mem_cons, List.not_mem_nil, or_false] at hf
    rcases hf with rfl | rfl | rfl <;> exact denotes_writePart _
  have hobject := Json.denotes_indentedObject depth hne hparts
  unfold denotedFields at hobject
  exact hobject

/-! ## Files -/

theorem denotes_file (records : List Record) :
    Denotes (symbolsOf (Json.indentedArray 0 (records.map fun r => Json.indentedObject 1 r.fields)))
      (.array (records.map toJson)) := by
  cases records with
  | nil => exact Json.denotes_emptyArray 0
  | cons r records =>
    have hitems : ∀ p ∈ (r :: records).map fun r => (Json.indentedObject 1 r.fields, r.toJson),
        Denotes (symbolsOf p.1) p.2 := by
      intro p hp
      obtain ⟨r, -, rfl⟩ := List.mem_map.mp hp
      exact denotes_indentedObject 1 r
    have harray := Json.denotes_indentedArray 0 (by simp) hitems
    rw [List.map_map, List.map_map] at harray
    exact harray

theorem mapM_ofJson?_toJson (records : List Record) :
    (records.map toJson).mapM ofJson? = some records := by
  induction records with
  | nil => rfl
  | cons r records ih =>
    rw [List.map_cons, List.mapM_cons, ofJson?_toJson, ih]
    rfl

theorem toList_writeFile (records : List Record) :
    ∃ rest, (writeFile records).toList = '[' :: rest := by
  have happend : ∀ text : String, ∃ rest, ("[" ++ text).toList = '[' :: rest := by
    intro text
    rw [String.toList_append]
    exact ⟨_, rfl⟩
  unfold writeFile Json.indentedArray Json.indentedParts
  split
  · rw [String.append_assoc]
    exact happend _
  · simp only [String.append_assoc]
    exact happend _

/-- A written file is not blank. -/
theorem not_isBlank_writeFile (records : List Record) :
    ¬ (writeFile records).toUTF8.toList.all isBlankByte = true := by
  obtain ⟨rest, hrest⟩ := toList_writeFile records
  rw [Utf8.toList_toUTF8, hrest, List.flatMap_cons, List.all_append, Bool.and_eq_true]
  exact fun h => absurd h.1 (by decide)

/-- A written file reads back as the records that were written. -/
theorem readFile?_writeFile (records : List Record) :
    readFile? (writeFile records).toUTF8.toList = some records := by
  have hread : Json.read? (symbolsOf (writeFile records)) = some (.array (records.map toJson)) := by
    unfold writeFile
    rw [Json.symbolsOf_append]
    exact Json.read?_of_denotes (denotes_file records) (by decide)
  unfold readFile? Json.readBytes?
  rw [if_neg (not_isBlank_writeFile records), Utf8.symbols_toUTF8]
  exact (congrArg (·.bind listOfJson?) hread).trans (mapM_ofJson?_toJson records)

end Telemetry.Backup.Record
