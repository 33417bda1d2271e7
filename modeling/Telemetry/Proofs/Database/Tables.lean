-- SUMMARY: Laws of the two tables: numbers and keys stay unique, a row that is written is the one that is read, and no other changes.
import Mathlib
import Telemetry.Database.Tables
import Telemetry.Proofs.Outcome

/-!
# Laws of the tables

The view of the tables is the content of the value column under a type and a name. Types have one number
each and metrics one row each, so writing a row changes the view at its own key alone, and the rows that
are read are the keys of the view with their contents.
-/

namespace Telemetry

/-- In a list without repeated keys, a search by key finds the one element with the key. -/
theorem find?_eq_some_iff_of_nodup {α β : Type} {f : α → β} {p : α → Bool} {key : β}
    {xs : List α} (hnodup : (xs.map f).Nodup) (hp : ∀ x, p x = true ↔ f x = key) {x : α} :
    xs.find? p = some x ↔ x ∈ xs ∧ f x = key := by
  constructor
  · intro hfind
    exact ⟨List.mem_of_find?_eq_some hfind, (hp x).mp (List.find?_some hfind)⟩
  · rintro ⟨hx, hkey⟩
    obtain ⟨y, hy⟩ := Option.isSome_iff_exists.mp (List.find?_isSome.mpr ⟨x, hx, (hp x).mpr hkey⟩)
    have hsame : f y = f x := ((hp y).mp (List.find?_some hy)).trans hkey.symm
    rw [hy, List.inj_on_of_nodup_map hnodup (List.mem_of_find?_eq_some hy) hx hsame]

namespace Database.Tables

/-! ## Look-ups -/

/-- Types and rows have each a name and a number of their own, and every row is of a known type. -/
structure Sound (t : Tables) : Prop where
  typeNames : (t.types.map (·.name)).Nodup
  typeIds : (t.types.map (·.id)).Nodup
  le_lastType : ∀ e ∈ t.types, e.id ≤ t.lastType
  keys : (t.metrics.map fun m => (m.name, m.typeId)).Nodup
  typed : ∀ m ∈ t.metrics, ∃ e ∈ t.types, e.id = m.typeId

theorem sound_empty : empty.Sound :=
  ⟨List.nodup_nil, List.nodup_nil, List.forall_mem_nil _, List.nodup_nil, List.forall_mem_nil _⟩

/-- The content of the value column under the number of a type and a name. -/
def cell? (t : Tables) (typeId : Nat) (name : String) : Option (Option Binary64) :=
  (t.metrics.find? (isRow name typeId)).map (·.value)

/-- The content of the value column under a type and a name. -/
def value? (t : Tables) (type name : String) : Option (Option Binary64) :=
  (t.findType? type).bind (t.cell? · name)

@[simp] theorem value?_empty (type name : String) : empty.value? type name = none := rfl

theorem isRow_iff {name : String} {typeId : Nat} {m : MetricEntry} :
    isRow name typeId m = true ↔ (m.name, m.typeId) = (name, typeId) := by
  unfold isRow
  rw [Bool.and_eq_true, beq_iff_eq, beq_iff_eq, Prod.mk.injEq]

theorem findType?_eq_some_iff {t : Tables} (h : t.Sound) {type : String} {id : Nat} :
    t.findType? type = some id ↔ ⟨id, type⟩ ∈ t.types := by
  unfold findType?
  simp only [Option.map_eq_some_iff,
    find?_eq_some_iff_of_nodup h.typeNames fun (_ : TypeEntry) => beq_iff_eq]
  constructor
  · rintro ⟨e, ⟨he, rfl⟩, rfl⟩
    exact he
  · intro hmem
    exact ⟨_, ⟨hmem, rfl⟩, rfl⟩

theorem typeName?_eq_some_iff {t : Tables} (h : t.Sound) {type : String} {id : Nat} :
    t.typeName? id = some type ↔ ⟨id, type⟩ ∈ t.types := by
  unfold typeName?
  simp only [Option.map_eq_some_iff,
    find?_eq_some_iff_of_nodup h.typeIds fun (_ : TypeEntry) => beq_iff_eq]
  constructor
  · rintro ⟨e, ⟨he, rfl⟩, rfl⟩
    exact he
  · intro hmem
    exact ⟨_, ⟨hmem, rfl⟩, rfl⟩

theorem findType?_injective {t : Tables} (h : t.Sound) {type other : String} {id : Nat}
    (htype : t.findType? type = some id) (hother : t.findType? other = some id) : type = other := by
  have hname := (typeName?_eq_some_iff h).mpr ((findType?_eq_some_iff h).mp htype)
  rw [(typeName?_eq_some_iff h).mpr ((findType?_eq_some_iff h).mp hother)] at hname
  exact (Option.some.inj hname).symm

theorem cell?_eq_some_iff {t : Tables} (h : t.Sound) {typeId : Nat} {name : String}
    {v : Option Binary64} :
    t.cell? typeId name = some v ↔
      ∃ m ∈ t.metrics, m.name = name ∧ m.typeId = typeId ∧ m.value = v := by
  unfold cell?
  simp only [Option.map_eq_some_iff, find?_eq_some_iff_of_nodup h.keys fun _ => isRow_iff,
    Prod.mk.injEq, and_assoc]

/-- The rows that are read are the keys of the view with their contents. -/
theorem mem_rows_iff {t : Tables} (h : t.Sound) {r : Row} :
    r ∈ t.rows ↔ ∃ type name v, r = ⟨some type, some name, v⟩ ∧ t.value? type name = some v := by
  unfold rows value?
  rw [List.mem_map]
  constructor
  · rintro ⟨m, hm, rfl⟩
    obtain ⟨e, he, hid⟩ := h.typed m hm
    have htype : (⟨m.typeId, e.name⟩ : TypeEntry) ∈ t.types := hid ▸ he
    refine ⟨e.name, m.name, m.value, ?_, ?_⟩
    · unfold join
      rw [(typeName?_eq_some_iff h).mpr htype]
    · rw [(findType?_eq_some_iff h).mpr htype, Option.bind_some, cell?_eq_some_iff h]
      exact ⟨m, hm, rfl, rfl, rfl⟩
  · rintro ⟨type, name, v, rfl, hvalue⟩
    obtain ⟨id, hid, hcell⟩ := Option.bind_eq_some_iff.mp hvalue
    obtain ⟨m, hm, rfl, rfl, rfl⟩ := (cell?_eq_some_iff h).mp hcell
    refine ⟨m, hm, ?_⟩
    unfold join
    rw [(typeName?_eq_some_iff h).mpr ((findType?_eq_some_iff h).mp hid)]

/-! ## Numbers of types -/

theorem typeId_of_some {t : Tables} {type : String} {id : Nat} (h : t.findType? type = some id) :
    t.typeId type = (id, t) := by
  unfold typeId
  rw [h]

theorem typeId_of_none {t : Tables} {type : String} (h : t.findType? type = none) :
    t.typeId type = (t.lastType + 1,
      { t with types := t.types ++ [⟨t.lastType + 1, type⟩], lastType := t.lastType + 1 }) := by
  unfold typeId
  rw [h]

theorem forall_name_ne_of_findType? {t : Tables} {type : String} (h : t.findType? type = none) :
    ∀ e ∈ t.types, e.name ≠ type := by
  intro e he hname
  have hnone := List.find?_eq_none.mp (Option.map_eq_none_iff.mp h) e he
  exact hnone (beq_iff_eq.mpr hname)

theorem Sound.typeId {t : Tables} (h : t.Sound) (type : String) : (t.typeId type).2.Sound := by
  cases hfind : t.findType? type with
  | some id =>
    rw [typeId_of_some hfind]
    exact h
  | none =>
    have hnames := forall_name_ne_of_findType? hfind
    rw [typeId_of_none hfind]
    refine ⟨?_, ?_, ?_, h.keys, ?_⟩
    · rw [List.map_append, List.nodup_append]
      refine ⟨h.typeNames, List.nodup_singleton _, ?_⟩
      intro name hname other hother
      obtain ⟨e, he, rfl⟩ := List.mem_map.mp hname
      obtain rfl := List.mem_singleton.mp hother
      exact hnames e he
    · rw [List.map_append, List.nodup_append]
      refine ⟨h.typeIds, List.nodup_singleton _, ?_⟩
      intro id hid other hother
      obtain ⟨e, he, rfl⟩ := List.mem_map.mp hid
      obtain rfl := List.mem_singleton.mp hother
      exact Nat.ne_of_lt (Nat.lt_succ_of_le (h.le_lastType e he))
    · intro e he
      rcases List.mem_append.mp he with he | he
      · exact Nat.le_succ_of_le (h.le_lastType e he)
      · obtain rfl := List.mem_singleton.mp he
        exact Nat.le_refl _
    · intro m hm
      obtain ⟨e, he, hid⟩ := h.typed m hm
      exact ⟨e, List.mem_append_left _ he, hid⟩

/-- Numbering a type gives it a number and leaves those of all others. -/
theorem findType?_typeId (t : Tables) (type other : String) :
    (t.typeId type).2.findType? other =
      if other = type then some (t.typeId type).1 else t.findType? other := by
  cases hfind : t.findType? type with
  | some id =>
    rw [typeId_of_some hfind]
    split
    · rename_i heq
      rw [heq, hfind]
    · rfl
  | none =>
    rw [typeId_of_none hfind]
    unfold findType?
    dsimp only
    rw [List.find?_append]
    split
    · rename_i heq
      subst heq
      rw [Option.map_eq_none_iff.mp hfind, Option.none_or, List.find?_singleton]
      simp
    · rename_i hne
      rw [List.find?_singleton, if_neg (by simpa using fun heq => hne heq.symm), Option.or_none]

/-- A number that was just given has no rows yet. -/
theorem value?_typeId {t : Tables} (h : t.Sound) (type other name : String) :
    (t.typeId type).2.value? other name = t.value? other name := by
  unfold value?
  rw [findType?_typeId]
  cases hfind : t.findType? type with
  | some id =>
    rw [typeId_of_some hfind]
    split
    · rename_i heq
      rw [heq, hfind]
    · rfl
  | none =>
    rw [typeId_of_none hfind]
    split
    · rename_i heq
      rw [heq, hfind, Option.bind_some, Option.bind_none]
      unfold cell?
      rw [Option.map_eq_none_iff, List.find?_eq_none]
      intro m hm hrow
      obtain ⟨e, he, hid⟩ := h.typed m hm
      have hle := h.le_lastType e he
      have heq : m.typeId = t.lastType + 1 := (Prod.ext_iff.mp (isRow_iff.mp hrow)).2
      omega
    · rfl

/-! ## Rows -/

/-- Write a number into the value column of a row of this name and type. -/
def rewrite (name : String) (typeId : Nat) (value : Binary64) (m : MetricEntry) : MetricEntry :=
  if isRow name typeId m then { m with value := storedReal value } else m

theorem key_rewrite (name : String) (typeId : Nat) (value : Binary64) (m : MetricEntry) :
    ((rewrite name typeId value m).name, (rewrite name typeId value m).typeId) =
      (m.name, m.typeId) := by
  unfold rewrite
  split <;> rfl

theorem writeValue_of_row {t : Tables} {name : String} {typeId : Nat} (value : Binary64)
    (h : t.metrics.any (isRow name typeId) = true) :
    t.writeValue name typeId value =
      { t with metrics := t.metrics.map (rewrite name typeId value) } :=
  if_pos h

theorem writeValue_of_no_row {t : Tables} {name : String} {typeId : Nat} (value : Binary64)
    (h : ¬ t.metrics.any (isRow name typeId) = true) :
    t.writeValue name typeId value =
      { t with
        metrics := t.metrics ++ [⟨t.lastMetric + 1, name, typeId, storedReal value⟩]
        lastMetric := t.lastMetric + 1 } :=
  if_neg h

theorem types_writeValue (t : Tables) (name : String) (typeId : Nat) (value : Binary64) :
    (t.writeValue name typeId value).types = t.types := by
  unfold writeValue
  split <;> rfl

theorem lastType_writeValue (t : Tables) (name : String) (typeId : Nat) (value : Binary64) :
    (t.writeValue name typeId value).lastType = t.lastType := by
  unfold writeValue
  split <;> rfl

theorem Sound.writeValue {t : Tables} (h : t.Sound) (name : String) {typeId : Nat}
    (htype : ∃ e ∈ t.types, e.id = typeId) (value : Binary64) :
    (t.writeValue name typeId value).Sound := by
  have htypes := types_writeValue t name typeId value
  have hlast := lastType_writeValue t name typeId value
  refine ⟨htypes ▸ h.typeNames, htypes ▸ h.typeIds, ?_, ?_, ?_⟩
  · rw [htypes, hlast]
    exact h.le_lastType
  · by_cases hrow : t.metrics.any (isRow name typeId) = true
    · rw [writeValue_of_row value hrow, List.map_map]
      simp only [Function.comp_def, key_rewrite]
      exact h.keys
    · rw [writeValue_of_no_row value hrow, List.map_append, List.nodup_append]
      refine ⟨h.keys, List.nodup_singleton _, ?_⟩
      intro key hkey other hother heq
      obtain ⟨m, hm, rfl⟩ := List.mem_map.mp hkey
      obtain rfl := List.mem_singleton.mp hother
      exact hrow (List.any_eq_true.mpr ⟨m, hm, isRow_iff.mpr heq⟩)
  · rw [htypes]
    intro m hm
    by_cases hrow : t.metrics.any (isRow name typeId) = true
    · rw [writeValue_of_row value hrow] at hm
      obtain ⟨m', hm', rfl⟩ := List.mem_map.mp hm
      obtain ⟨e, he, hid⟩ := h.typed m' hm'
      exact ⟨e, he, hid.trans (Prod.ext_iff.mp (key_rewrite name typeId value m')).2.symm⟩
    · rw [writeValue_of_no_row value hrow] at hm
      rcases List.mem_append.mp hm with hm | hm
      · exact h.typed m hm
      · obtain rfl := List.mem_singleton.mp hm
        exact htype

/-- Writing a value changes the content under its own key alone. -/
theorem cell?_writeValue (t : Tables) (name : String) (typeId : Nat) (value : Binary64)
    (otherId : Nat) (other : String) :
    (t.writeValue name typeId value).cell? otherId other =
      if (other, otherId) = (name, typeId) then some (storedReal value)
      else t.cell? otherId other := by
  unfold cell?
  by_cases hrow : t.metrics.any (isRow name typeId) = true
  · have hkey : isRow other otherId ∘ rewrite name typeId value = isRow other otherId := by
      funext m
      rw [Bool.eq_iff_iff, Function.comp_apply, isRow_iff, isRow_iff, key_rewrite]
    rw [writeValue_of_row value hrow, List.find?_map, hkey, Option.map_map]
    split
    · rename_i heq
      cases heq
      obtain ⟨m, hm, hisRow⟩ := List.any_eq_true.mp hrow
      obtain ⟨m', hfind⟩ := Option.isSome_iff_exists.mp (List.find?_isSome.mpr ⟨m, hm, hisRow⟩)
      rw [hfind, Option.map_some, Function.comp_apply, rewrite, if_pos (List.find?_some hfind)]
    · rename_i hne
      refine Option.map_congr fun m hfind => ?_
      have hother := isRow_iff.mp (List.find?_some hfind)
      rw [Function.comp_apply, rewrite,
        if_neg fun hisRow => hne (hother.symm.trans (isRow_iff.mp hisRow))]
  · rw [writeValue_of_no_row value hrow, List.find?_append, List.find?_singleton]
    by_cases heq : (other, otherId) = (name, typeId)
    · rw [if_pos heq]
      cases heq
      have hnone : t.metrics.find? (isRow name typeId) = none :=
        List.find?_eq_none.mpr fun m hm hisRow => hrow (List.any_eq_true.mpr ⟨m, hm, hisRow⟩)
      have hisRow : isRow name typeId ⟨t.lastMetric + 1, name, typeId, storedReal value⟩ = true :=
        isRow_iff.mpr rfl
      rw [hnone, if_pos hisRow]
      rfl
    · rw [if_neg heq, if_neg fun hisRow => heq (isRow_iff.mp hisRow).symm, Option.or_none]

/-! ## Writing rows -/

theorem upsert_eq (t : Tables) (r : FullRow) :
    t.upsert r = (t.typeId r.type).2.writeValue r.name (t.typeId r.type).1 r.value := rfl

theorem Sound.upsert {t : Tables} (h : t.Sound) (r : FullRow) : (t.upsert r).Sound := by
  have hsound := h.typeId r.type
  have hfind : (t.typeId r.type).2.findType? r.type = some (t.typeId r.type).1 := by
    rw [findType?_typeId, if_pos rfl]
  rw [upsert_eq]
  exact hsound.writeValue r.name ⟨_, (findType?_eq_some_iff hsound).mp hfind, rfl⟩ r.value

/-- Writing a row changes the content under its own key alone. -/
theorem value?_upsert {t : Tables} (h : t.Sound) (r : FullRow) (type name : String) :
    (t.upsert r).value? type name =
      if type = r.type ∧ name = r.name then some (storedReal r.value) else t.value? type name := by
  have hsound := h.typeId r.type
  have hfind : (t.typeId r.type).2.findType? r.type = some (t.typeId r.type).1 := by
    rw [findType?_typeId, if_pos rfl]
  have htypes : ∀ other, (t.upsert r).findType? other = (t.typeId r.type).2.findType? other := by
    intro other
    unfold findType?
    rw [upsert_eq, types_writeValue]
  rw [← value?_typeId h r.type type name]
  unfold value?
  rw [htypes]
  cases hid : (t.typeId r.type).2.findType? type with
  | none =>
    have hne : ¬ (type = r.type ∧ name = r.name) := by
      rintro ⟨rfl, -⟩
      rw [hfind] at hid
      cases hid
    rw [if_neg hne]
    rfl
  | some id =>
    have hkey : (name, id) = (r.name, (t.typeId r.type).1) ↔ type = r.type ∧ name = r.name := by
      constructor
      · intro heq
        obtain ⟨hname, rfl⟩ := Prod.ext_iff.mp heq
        exact ⟨findType?_injective hsound hid hfind, hname⟩
      · rintro ⟨rfl, rfl⟩
        rw [hfind] at hid
        cases hid
        rfl
    rw [Option.bind_some, Option.bind_some, upsert_eq, cell?_writeValue]
    exact if_congr hkey rfl rfl

theorem Sound.foldl_upsert {t : Tables} (h : t.Sound) (rows : List FullRow) :
    (rows.foldl Tables.upsert t).Sound := by
  induction rows generalizing t with
  | nil => exact h
  | cons r rows ih => exact ih (h.upsert r)

/-! ## Updates -/

/-- The rows that an update writes, which are none if one of them is not complete. -/
def writtenRows (rows : List Row) : List FullRow :=
  (rows.mapM Row.complete).toOption.getD []

theorem mapM_complete_map_ofFull (rows : List FullRow) :
    (rows.map Row.ofFull).mapM Row.complete = .ok rows := by
  induction rows with
  | nil => rfl
  | cons r rows ih => exact mapM_cons_eq_ok_iff.mpr ⟨r, rows, rfl, ih, rfl⟩

@[simp] theorem writtenRows_map_ofFull (rows : List FullRow) :
    writtenRows (rows.map .ofFull) = rows := by
  unfold writtenRows
  rw [mapM_complete_map_ofFull]
  rfl

theorem upsertAll_eq (t : Tables) (rows : List Row) :
    t.upsertAll rows = (rows.mapM Row.complete).map (·.foldl upsert t) := by
  induction rows generalizing t with
  | nil => rfl
  | cons r rows ih =>
    rw [upsertAll, List.mapM_cons]
    cases r.complete with
    | error e => rfl
    | ok full =>
      rw [ok_bind, ih, ok_bind]
      cases rows.mapM Row.complete <;> rfl

/-- An update writes its rows if all of them are complete, and otherwise nothing. -/
theorem update_eq (t : Tables) (rows : List Row) :
    t.update rows =
      ((rows.mapM Row.complete).map fun _ => (), (writtenRows rows).foldl upsert t) := by
  unfold update writtenRows
  rw [upsertAll_eq]
  cases rows.mapM Row.complete <;> rfl

theorem update_error {t t' : Tables} {rows : List Row} {e : Error}
    (h : t.update rows = (.error e, t')) : t' = t := by
  unfold update at h
  split at h
  · cases h
  · cases h
    rfl

/-- Whether or not all rows are complete, what is left is sound. -/
theorem Sound.update {t : Tables} (h : t.Sound) (rows : List Row) : (t.update rows).2.Sound := by
  rw [update_eq]
  exact h.foldl_upsert (writtenRows rows)

end Database.Tables

end Telemetry
